import WireSchema.Proofs.Output.Verification

/-!
# Loading a manifest

The next run knows a tree by its manifest, and prunes by it. So what it loads must be what the run
before it has written, whatever the keys are: they hold names of the schema, in which quotes,
backslashes and control characters may stand.

**Theorem (`manifest_reloaded`).** Every manifest is written in its format and read as itself from
any text in this format. A machine that has written it to its place loads it from there, and does
not change.

A file that has been replaced is read by the same path (`read_of_run_replaceFile`), and what is read
is what the text says (`run_loadManifest`).
-/

namespace WireSchema.Output

open Disk

variable {m m' : Machine} {p : Path} {bytes : List UInt8}

/-- A file that has been replaced is read. -/
theorem read_of_run_replaceFile (h : (replaceFile p bytes).run m = (.ok (), m')) :
    m'.tree.read m'.cwd p = .ok bytes := by
  obtain ⟨hdestination, hp, hlook⟩ := of_run_replaceFile h
  rw [Program.cwd_of_run h, FileTree.read_eq, hdestination, Outcome.ok_bind, hlook]
  dsimp only
  rw [hp.slash]
  rfl

/-- A file is read without a fault, and the machine stays as it is. -/
theorem serve_read_of_quiet (hquiet : m.faults = []) (hread : m.tree.read m.cwd p = .ok bytes) :
    m.serve (.read p) = (.ok bytes, m) := by
  rw [Machine.serve_of_quiet hquiet]
  exact Prod.ext hread rfl

/-- **Manifests are loaded as they were written.** -/
theorem manifest_reloaded (manifest : Manifest) :
    Manifest.parse? manifest.render = some manifest ∧
      manifest.IsText manifest.render.toList ∧
      (∀ text : String, manifest.IsText text.toList → Manifest.parse? text = some manifest) ∧
      ∀ (root : Path) (m m' : Machine), m'.faults = [] →
        (∀ text : String, manifest.IsText text.toList →
          m'.tree.read m'.cwd (Manifest.path root) = .ok (Text.utf8 text) →
          (loadManifest root).run m' = (.ok (some manifest), m')) ∧
        ((replaceFile (Manifest.path root) (Text.utf8 manifest.render)).run m = (.ok (), m') →
          (loadManifest root).run m' = (.ok (some manifest), m')) := by
  refine ⟨manifest.parse?_render, manifest.isText_render,
    fun text htext => Manifest.parse?_of_isText htext, ?_⟩
  intro root m m' hquiet
  constructor
  · intro text htext hread
    exact run_loadManifest (serve_read_of_quiet hquiet hread) (Manifest.parse?_of_isText htext)
  · intro hreplace
    have hread := read_of_run_replaceFile hreplace
    exact run_loadManifest (serve_read_of_quiet hquiet hread) manifest.parse?_render

/-- A manifest with a quote, a backslash, control characters and other letters in its keys. -/
def awkward : Manifest :=
  ⟨generatorName, "0.3.0\n", "", .ofList [("Größe/\"a\\\x01 😀", "0f"), ("\t", "/")]⟩

/-- Such a manifest is written on an empty machine and loaded from there. -/
theorem manifest_reloaded_awkward :
    Manifest.parse? awkward.render = some awkward ∧
      ∃ m', (replaceFile (Manifest.path ⟨"r"⟩) (Text.utf8 awkward.render)).run {} = (.ok (), m') ∧
        (loadManifest ⟨"r"⟩).run m' = (.ok (some awkward), m') := by
  obtain ⟨hparse, -, -, hload⟩ := manifest_reloaded awkward
  have hanswer : ((replaceFile (Manifest.path ⟨"r"⟩) (Text.utf8 awkward.render)).run {}).1 =
      .ok () := by decide +kernel
  have hrun : (replaceFile (Manifest.path ⟨"r"⟩) (Text.utf8 awkward.render)).run {} = (.ok (), _) :=
    Prod.ext hanswer rfl
  have hquiet := Program.faults_run
    (replaceFile (Manifest.path ⟨"r"⟩) (Text.utf8 awkward.render)) (m := {}) rfl
  exact ⟨hparse, _, hrun, (hload _ _ _ hquiet).2 hrun⟩

end WireSchema.Output
