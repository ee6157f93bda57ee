import WireSchema.Proofs.Disk.Transcript
import WireSchema.Proofs.Output.Aftermath

/-!
# What a run can do to files

Any request of a run can fail, and the run then ends or goes on, as the case may be. What it has done
to the files by then is said by a relation between trees (`Rewritten`): the contents of each file are
the old ones, or ones that the run may give it. A part of a program that keeps to this from whatever
machine it starts is a `Rewrites`, and parts that follow each other are put together by
`Rewrites.bind`.

A file is replaced as a whole or not at all (`rewrites_replaceFile`): it is filled under another name
and then moved. If one of these fails, that temporary file is removed again, and only a fault keeps
it there. Then the file is abandoned. The transcript of the run tells where, and it shows two
failures.
-/

namespace WireSchema

namespace Disk

/-! ## The bytes of files -/

def FileTree.bytesAt (t : FileTree) (place : Place) : Option (List UInt8) :=
  Item.bytes? (t.look place)

namespace FileTree

variable {t t' : FileTree} {place : Place} {bytes : List UInt8}

theorem bytesAt_eq_some : t.bytesAt place = some bytes ↔ t.look place = some (.file bytes) :=
  Item.bytes?_eq_some

theorem Sets.bytesAt {item : Option Item} (h : Sets t t' place item) (other : Place) :
    t'.bytesAt other = if other = place then Item.bytes? item else t.bytesAt other := by
  rw [FileTree.bytesAt, h other]
  split_ifs <;> rfl

/-- What was no file and is none now. -/
theorem Sets.bytesAt_eq {item : Option Item} (h : Sets t t' place item)
    (hbefore : t.bytesAt place = none) (hafter : Item.bytes? item = none) :
    t'.bytesAt = t.bytesAt := by
  funext other
  rw [h.bytesAt other, hafter]
  split_ifs with hother
  · rw [hother, hbefore]
  · rfl

end FileTree

/-- The name of a temporary file is a new one. -/
theorem FileTree.exists_freshName {t t' : FileTree} {cwd : Place} {p : Path} {temporary : Temporary}
    (h : t.makeTemporary cwd p = .ok (temporary, t')) :
    ∃ names, temporary.name = freshName names := by
  unfold makeTemporary at h
  obtain ⟨⟨place, entries⟩, -, h⟩ := Outcome.bind_eq_ok.1 h
  cases h
  exact ⟨_, rfl⟩

/-- A request that changes no file: a question, or one for a directory. -/
def Request.Spares : Request → Prop
  | .makeDirectory _ | .removeDirectory _ => True
  | r => r.Question

theorem Machine.bytesAt_serve {m : Machine} {r : Request} (h : r.Spares) :
    (m.serve r).2.tree.bytesAt = m.tree.bytesAt := by
  cases hanswer : (m.serve r).1 with
  | error cause =>
    rcases tree_of_serve_eq_error hanswer with htree | ⟨_, _, _, rfl, -⟩
    · rw [htree]
    · cases h
  | ok answer =>
    have hreply := reply_of_serve hanswer
    cases r with
    | makeDirectory path =>
      obtain ⟨hnone, hsets⟩ := FileTree.sets_makeDirectory (FileTree.settle_eq_ok.1 hreply)
      exact hsets.bytesAt_eq (by rw [FileTree.bytesAt, hnone]; rfl) rfl
    | removeDirectory path =>
      obtain ⟨hlook, -, hsets⟩ := FileTree.sets_removeDirectory (FileTree.settle_eq_ok.1 hreply)
      exact hsets.bytesAt_eq (by rw [FileTree.bytesAt, hlook]; rfl) rfl
    | kind | read | names | sync | resolve | workingDirectory =>
      rw [tree_serve_of_question (by exact h)]
    | makeTemporary | fill | persist | discard | removeFile => cases h

theorem Program.Asks.bytesAt_eq {ε α : Type} {p : Program ε α} (h : p.Asks Request.Spares)
    (m : Machine) : (p.run m).2.tree.bytesAt = m.tree.bytesAt :=
  Program.Asks.run_induction (I := (·.bytesAt = m.tree.bytesAt))
    (fun _ _ _ hr hn => (Machine.bytesAt_serve hr).trans hn) h rfl rfl

end Disk

namespace Output

open Disk

variable {ε α β : Type} {m m' : Machine} {cwd : Place} {root p : Path} {bytes : List UInt8}

/-! ## Changes of files -/

/-- The contents that may be given to the file at a place; none stands for its removal. -/
abbrev Change : Type := Place → Option (List UInt8) → Prop

/-- The places of temporary files whose removal met a fault, after something else had failed. -/
def Abandoned (cwd : Place) (faults : List (Option Fault)) (log : List Exchange) (place : Place) :
    Prop :=
  ∃ temporary fault, some fault ∈ faults ∧ ⟨.discard temporary, .error fault.error⟩ ∈ log ∧
    2 ≤ failures log ∧ (∃ names, temporary.name = FileTree.freshName names) ∧
    place = FileTree.placeOfTemporary cwd temporary

theorem Abandoned.mono {faults faults' : List (Option Fault)} {log log' : List Exchange}
    {place : Place} (hfaults : faults ⊆ faults') (hlog : log.Sublist log')
    (h : Abandoned cwd faults log place) : Abandoned cwd faults' log' place := by
  obtain ⟨temporary, fault, hfault, hmem, htwo, h⟩ := h
  exact ⟨temporary, fault, hfaults hfault, hlog.subset hmem,
    Nat.le_trans htwo (failures_mono hlog), h⟩

/-- Every file is as it was, or has been changed as `change` allows. What else there is was abandoned
at a place where there was no file, or none any more. -/
def Rewritten (change : Change) (abandoned : Place → Prop) (t t' : FileTree) : Prop :=
  ∀ place, t'.bytesAt place = t.bytesAt place ∨ change place (t'.bytesAt place) ∨
    abandoned place ∧ (t.bytesAt place = none ∨ change place none)

namespace Rewritten

variable {change change' : Change} {abandoned abandoned' : Place → Prop} {t t' t'' : FileTree}

theorem of_eq (h : t'.bytesAt = t.bytesAt) : Rewritten change abandoned t t' :=
  fun place => .inl (congrFun h place)

theorem of_sets {place : Place} {item : Option Item} (h : FileTree.Sets t t' place item)
    (hchange : change place (Item.bytes? item)) : Rewritten change abandoned t t' := by
  intro other
  rw [h.bytesAt other]
  split_ifs with hother
  · exact .inr (.inl (hother ▸ hchange))
  · exact .inl rfl

theorem mono (h : Rewritten change abandoned t t')
    (hchange : ∀ place content, change place content → change' place content)
    (habandoned : ∀ place, abandoned place → abandoned' place) :
    Rewritten change' abandoned' t t' := by
  intro place
  rcases h place with heq | hchanged | ⟨hleft, hnone⟩
  · exact .inl heq
  · exact .inr (.inl (hchange _ _ hchanged))
  · exact .inr (.inr ⟨habandoned _ hleft, hnone.imp_right (hchange _ _)⟩)

theorem trans (h : Rewritten change abandoned t t') (h' : Rewritten change abandoned t' t'') :
    Rewritten change abandoned t t'' := by
  intro place
  rcases h' place with heq | hchanged | ⟨hleft, hnone⟩
  · rw [heq]
    exact h place
  · exact .inr (.inl hchanged)
  · refine .inr (.inr ⟨hleft, ?_⟩)
    rcases h place with heq | hchanged | ⟨-, hnone'⟩
    · exact heq ▸ hnone
    · rcases hnone with hnone | hnone
      · exact .inr (hnone ▸ hchanged)
      · exact .inr hnone
    · exact hnone'

/-- A file that may not be changed is as it was. -/
theorem bytesAt_eq (h : Rewritten change abandoned t t') {place : Place}
    (hfile : t.bytesAt place ≠ none) (hchange : ∀ content, ¬change place content) :
    t'.bytesAt place = t.bytesAt place := by
  rcases h place with heq | hchanged | ⟨-, hnone | hnone⟩
  · exact heq
  · exact absurd hchanged (hchange _)
  · exact absurd hnone hfile
  · exact absurd hnone (hchange _)

/-- A file that may not be removed is still there. -/
theorem bytesAt_ne_none (h : Rewritten change abandoned t t') {place : Place}
    (hfile : t.bytesAt place ≠ none) (hchange : ¬change place none) :
    t'.bytesAt place ≠ none := by
  rcases h place with heq | hchanged | ⟨-, hnone | hnone⟩
  · rwa [heq]
  · intro hnone
    exact hchange (hnone ▸ hchanged)
  · exact absurd hnone hfile
  · exact absurd hnone hchange

end Rewritten

/-! ## Programs -/

/-- The files after a run of a program: changed as `done` allows if it succeeds, and as `failed`
allows if it does not. -/
structure Rewrites (done failed : Change) (p : Program ε α) (m : Machine) : Prop where
  ok : ∀ a m', p.run m = (.ok a, m') →
    Rewritten done (Abandoned m.cwd m.faults (p.transcript m)) m.tree m'.tree
  error : ∀ e m', p.run m = (.error e, m') →
    Rewritten failed (Abandoned m.cwd m.faults (p.transcript m)) m.tree m'.tree

namespace Rewrites

variable {done failed done' failed' : Change} {p : Program ε α}

theorem of_run (h : ∀ x m', p.run m = (x, m') →
    Rewritten done (Abandoned m.cwd m.faults (p.transcript m)) m.tree m'.tree) :
    Rewrites done done p m :=
  ⟨fun a => h (.ok a), fun e => h (.error e)⟩

theorem of_asks (h : p.Asks Request.Spares) : Rewrites done failed p m := by
  have htree := h.bytesAt_eq m
  constructor <;> intro x m' hrun <;> rw [hrun] at htree <;> exact .of_eq htree

theorem mono (h : Rewrites done failed p m)
    (hdone : ∀ place content, done place content → done' place content)
    (hfailed : ∀ place content, failed place content → failed' place content) :
    Rewrites done' failed' p m where
  ok a m' hrun := (h.ok a m' hrun).mono hdone fun _ => id
  error e m' hrun := (h.error e m' hrun).mono hfailed fun _ => id

/-- The changes of two programs that follow each other. When the second one fails, what the first one
has done remains. -/
theorem bind {f : α → Program ε β} (hp : Rewrites failed failed p m)
    (hdone : ∀ place content, failed place content → done place content)
    (hf : ∀ a m', p.run m = (.ok a, m') → Rewrites done failed (f a) m') :
    Rewrites done failed (p >>= f) m := by
  have hlog {a : α} {between : Machine} (hfirst : p.run m = (.ok a, between)) (place : Place) :
      (Abandoned m.cwd m.faults (p.transcript m) place →
        Abandoned m.cwd m.faults ((p >>= f).transcript m) place) ∧
      (Abandoned between.cwd between.faults ((f a).transcript between) place →
        Abandoned m.cwd m.faults ((p >>= f).transcript m) place) := by
    rw [Program.transcript_bind_of_ok hfirst, Program.cwd_of_run hfirst]
    exact ⟨.mono (List.Subset.refl _) (List.sublist_append_left _ _),
      .mono (Program.faults_of_run hfirst) (List.sublist_append_right _ _)⟩
  constructor
  · intro b m' hrun
    obtain ⟨a, between, hfirst, hsecond⟩ := Program.run_bind_eq_ok.1 hrun
    exact ((hp.ok a between hfirst).mono hdone fun place => (hlog hfirst place).1).trans
      (((hf a between hfirst).ok b m' hsecond).mono (fun _ _ => id) fun place =>
        (hlog hfirst place).2)
  · intro e m' hrun
    rcases Program.run_bind_eq_error.1 hrun with hfirst | ⟨a, between, hfirst, hsecond⟩
    · rw [Program.transcript_bind_of_error hfirst]
      exact hp.error e m' hfirst
    · exact ((hp.ok a between hfirst).mono (fun _ _ => id) fun place => (hlog hfirst place).1).trans
        (((hf a between hfirst).error e m' hsecond).mono (fun _ _ => id) fun place =>
          (hlog hfirst place).2)

/-- A program that ends with a report. -/
theorem report (h : Rewrites done failed p m) (event : Event) (b : β) :
    Rewrites done failed (p >>= fun _ => .report event (.done b)) m := by
  constructor
  · intro _ m' hrun
    obtain ⟨a, between, hfirst, hreport⟩ := Program.run_bind_eq_ok.1 hrun
    cases hreport
    rw [Program.transcript_bind_of_ok hfirst]
    exact (h.ok a between hfirst).mono (fun _ _ => id) fun _ habandoned => by
      rwa [Program.transcript, Program.transcript, List.append_nil]
  · intro e m' hrun
    rcases Program.run_bind_eq_error.1 hrun with hfirst | ⟨a, between, -, hreport⟩
    · rw [Program.transcript_bind_of_error hfirst]
      exact h.error e m' hfirst
    · cases hreport

end Rewrites

/-! ## Single files -/

theorem spares_of_question (r : Request) (h : r.Question) : r.Spares := by
  cases r <;> trivial

theorem spares_makeDirectories (p : Path) :
    (Program.makeDirectories p : Program OutputError _).Asks Request.Spares :=
  Program.asks_makeChain (fun _ => trivial) fun _ _ _ => trivial

/-- A temporary file is filled and moved, or something fails and it is left where it is with some
bytes. -/
theorem run_commit {temporary : Temporary} {x : Except OutputError (Except OsError Unit)}
    (h : (commit temporary p bytes).run m = (x, m')) :
    x = .ok (.ok ()) ∧ (∃ between, m.tree.fill m.cwd temporary bytes = .ok between ∧
        between.persist m.cwd temporary p = .ok m'.tree) ∨
      (∃ cause, x = .ok (.error cause)) ∧
        0 < failures ((commit temporary p bytes).transcript m) ∧
        (m'.tree = m.tree ∨ ∃ part, m.tree.fill m.cwd temporary part = .ok m'.tree) := by
  rw [commit, Program.run_request_bind] at h
  rw [commit, Program.transcript_request_bind]
  -- The first request that fails is the last one, and its entry in the transcript counts.
  cases hfill : (m.serve (.fill temporary bytes)).1 with
  | error cause =>
    rw [hfill] at h
    cases h
    refine .inr ⟨⟨cause, rfl⟩, Nat.zero_lt_one, ?_⟩
    rcases Machine.tree_of_serve_eq_error hfill with htree | ⟨_, _, part, ⟨⟩, hpart⟩
    · exact .inl htree
    · exact .inr ⟨part, hpart⟩
  | ok =>
    have hfilled := FileTree.settle_eq_ok.1 (Machine.reply_of_serve hfill)
    have hcwd := Machine.cwd_serve (m := m) (r := .fill temporary bytes)
    rw [hfill] at h
    generalize (m.serve (.fill temporary bytes)).2 = filled at h hfilled hcwd ⊢
    dsimp only at h ⊢
    rw [Program.run_request_bind] at h
    rw [Program.transcript_request_bind]
    have hsynced : (filled.serve (.sync temporary)).2.tree = filled.tree :=
      Machine.tree_serve_of_question trivial
    have hcwd' := Machine.cwd_serve (m := filled) (r := .sync temporary)
    cases hsync : (filled.serve (.sync temporary)).1 with
    | error cause =>
      rw [hsync] at h
      cases h
      exact .inr ⟨⟨cause, rfl⟩, Nat.zero_lt_one, .inr ⟨bytes, by rw [hsynced, hfilled]⟩⟩
    | ok =>
      rw [hsync] at h
      generalize (filled.serve (.sync temporary)).2 = synced at h hsynced hcwd' ⊢
      cases h
      cases hpersist : (synced.serve (.persist temporary p)).1 with
      | error cause =>
        refine .inr ⟨⟨cause, rfl⟩, ?_, .inr ⟨bytes, ?_⟩⟩
        · rw [Program.request, Program.transcript, hpersist]
          exact Nat.zero_lt_one
        rcases Machine.tree_of_serve_eq_error hpersist with htree | ⟨_, _, _, ⟨⟩, -⟩
        rw [htree, hsynced, hfilled]
      | ok =>
        have hmoved := FileTree.settle_eq_ok.1 (Machine.reply_of_serve hpersist)
        rw [hsynced, hcwd', hcwd] at hmoved
        exact .inl ⟨rfl, filled.tree, hfilled, hmoved⟩

/-- What comes after a temporary file was to be moved: it is removed if that failed. -/
def conclude (temporary : Temporary) (p : Path) : Except OsError Unit → Program OutputError Unit
  | .ok () => return
  | .error cause => do
    let _ ← Program.request (.discard temporary)
    .fail (.disk p cause)

/-- A temporary file is moved, or it is removed, or it is abandoned with some bytes. -/
theorem run_conclude {temporary : Temporary} {x : Except OutputError Unit}
    {found : Place × List UInt8} (hfound : m.tree.findTemporary m.cwd temporary = .ok found)
    (h : (commit temporary p bytes >>= conclude temporary p).run m = (x, m')) :
    x = .ok () ∧ (∃ between, m.tree.fill m.cwd temporary bytes = .ok between ∧
        between.persist m.cwd temporary p = .ok m'.tree) ∨
      (∃ e, x = .error e) ∧ ∃ filled,
        (filled = m.tree ∨ ∃ part, m.tree.fill m.cwd temporary part = .ok filled) ∧
        (filled.discard m.cwd temporary = .ok m'.tree ∨ m'.tree = filled ∧
          (∃ fault, some fault ∈ m.faults ∧ ⟨.discard temporary, .error fault.error⟩ ∈
            (commit temporary p bytes >>= conclude temporary p).transcript m) ∧
          2 ≤ failures ((commit temporary p bytes >>= conclude temporary p).transcript m)) := by
  generalize hcommit : (commit temporary p bytes).run m = result
  obtain ⟨done, between⟩ := result
  rw [Program.run_bind, hcommit] at h
  rcases run_commit hcommit with ⟨rfl, hdelivered⟩ | ⟨⟨cause, rfl⟩, hfailed, hfilled⟩
  · cases h
    exact .inl ⟨rfl, hdelivered⟩
  · have hcwd := Program.cwd_of_run hcommit
    cases h
    refine .inr ⟨⟨_, rfl⟩, between.tree, hfilled, ?_⟩
    cases hdiscard : (between.serve (.discard temporary)).1 with
    | ok =>
      rw [← hcwd]
      exact .inl (FileTree.settle_eq_ok.1 (Machine.reply_of_serve hdiscard))
    | error cause' =>
      -- The file is still there to be removed, so it takes a fault that it is not.
      obtain ⟨there, hthere⟩ : ∃ there, between.tree.findTemporary m.cwd temporary = .ok there := by
        rcases hfilled with heq | ⟨part, hfill⟩
        · exact ⟨found, heq ▸ hfound⟩
        · exact ⟨_, findTemporary_of_fill hfill⟩
      have hreply : (between.tree.reply between.cwd (.discard temporary)).1 = .ok () := by
        rw [hcwd, FileTree.reply, FileTree.discard, hthere]
        rfl
      obtain ⟨fault, hfault, rfl⟩ := Machine.fault_of_serve_eq_error hreply hdiscard
      -- What made it necessary to remove the file is the first failure, and this is the second one.
      have hlog : (conclude temporary p (.error cause)).transcript between =
          [⟨.discard temporary, .error fault.error⟩] := by
        rw [conclude, Program.transcript_request_bind, hdiscard]
        rfl
      rw [Program.transcript_bind_of_ok hcommit, hlog, failures_append,
        failures_cons_of_error rfl]
      refine .inr ⟨?_, ⟨fault, Program.faults_of_run hcommit hfault,
        List.mem_append_right _ List.mem_cons_self⟩, by omega⟩
      rcases Machine.tree_of_serve_eq_error hdiscard with htree | ⟨_, _, _, ⟨⟩, -⟩
      exact htree

/-- A temporary file that is not moved is gone again, unless it is abandoned. -/
theorem rewritten_of_undelivered {t t₁ filled t' : FileTree} {directory : Path}
    {temporary : Temporary} {faults : List (Option Fault)} {log : List Exchange}
    (hmake : t.makeTemporary cwd directory = .ok (temporary, t₁))
    (hfilled : filled = t₁ ∨ ∃ part, t₁.fill cwd temporary part = .ok filled)
    (hend : filled.discard cwd temporary = .ok t' ∨
      t' = filled ∧ (∃ fault, some fault ∈ faults ∧ ⟨.discard temporary, .error fault.error⟩ ∈ log) ∧
        2 ≤ failures log) :
    Rewritten (fun _ _ => False) (Abandoned cwd faults log) t t' := by
  obtain ⟨-, -, hnone, hmade⟩ := FileTree.sets_makeTemporary hmake
  -- Up to here nothing has changed but the temporary file, which was not there.
  have hother : ∀ other, other ≠ FileTree.placeOfTemporary cwd temporary →
      filled.look other = t.look other := by
    intro other hne
    rcases hfilled with rfl | ⟨part, hfill⟩
    · rw [hmade, if_neg hne]
    · rw [(FileTree.sets_fill hfill).2, if_neg hne, hmade, if_neg hne]
  intro place
  by_cases hplace : place = FileTree.placeOfTemporary cwd temporary
  · rcases hend with hdiscard | ⟨rfl, ⟨fault, hfault, hmem⟩, htwo⟩
    · refine .inl ?_
      rw [(FileTree.sets_discard hdiscard).2.bytesAt, if_pos hplace, FileTree.bytesAt, hplace, hnone]
    · have hfresh := FileTree.exists_freshName hmake
      refine .inr (.inr ⟨⟨temporary, fault, hfault, hmem, htwo, hfresh, hplace⟩, .inl ?_⟩)
      rw [FileTree.bytesAt, hplace, hnone]
      rfl
  · refine .inl ?_
    rcases hend with hdiscard | ⟨rfl, -⟩
    · rw [(FileTree.sets_discard hdiscard).2.bytesAt, if_neg hplace, FileTree.bytesAt,
        hother place hplace, FileTree.bytesAt]
    · rw [FileTree.bytesAt, hother place hplace, FileTree.bytesAt]

/-- Writes a file beside its place and moves it there. -/
def deliver (parent p : Path) (bytes : List UInt8) : Program OutputError Unit := do
  let temporary ← Program.demand (.makeTemporary parent) (.disk parent)
  commit temporary p bytes >>= conclude temporary p

theorem replaceFile_eq {parent : Path} (h : p.parent? = some parent) (bytes : List UInt8) :
    replaceFile p bytes = (do
      match ← Program.makeDirectories parent with
      | .error cause => .fail (.disk parent cause)
      | .ok () => deliver parent p bytes) := by
  rw [replaceFile, h]
  rfl

/-- A file is delivered, or no file has changed. -/
theorem run_deliver {parent : Path} {x : Except OutputError Unit}
    (h : (deliver parent p bytes).run m = (x, m')) :
    x = .ok () ∧ (∃ temporary t₁ t₂, m.tree.makeTemporary m.cwd parent = .ok (temporary, t₁) ∧
        t₁.fill m.cwd temporary bytes = .ok t₂ ∧ t₂.persist m.cwd temporary p = .ok m'.tree) ∨
      (∃ e, x = .error e) ∧ Rewritten (fun _ _ => False)
        (Abandoned m.cwd m.faults ((deliver parent p bytes).transcript m)) m.tree m'.tree := by
  rcases Program.run_demand_bind h with ⟨temporary, hserve, h⟩ | ⟨cause, hserve, rfl, rfl⟩
  · have hmake : m.tree.makeTemporary m.cwd parent =
        .ok (temporary, (m.serve (.makeTemporary parent)).2.tree) := by
      have hreply := Machine.reply_of_serve hserve
      rw [FileTree.reply] at hreply
      split at hreply
      · cases hreply
      · rename_i hmake
        obtain ⟨hanswer, htree⟩ := Prod.mk.inj hreply
        rw [hmake, ← htree, Except.ok.inj hanswer]
    have hlog : ((commit temporary p bytes >>= conclude temporary p).transcript
        (m.serve (.makeTemporary parent)).2).Sublist ((deliver parent p bytes).transcript m) := by
      rw [deliver, Program.transcript_bind_of_ok (Program.run_demand_of_ok hserve)]
      exact List.sublist_append_right _ _
    have hcwd := Machine.cwd_serve (m := m) (r := .makeTemporary parent)
    have hfound := findTemporary_of_makeTemporary hmake
    rw [← hcwd] at hfound
    rcases run_conclude hfound h with ⟨hx, t₂, hfill, hpersist⟩ | ⟨hx, filled, hfilled, hend⟩
    · rw [hcwd] at hfill hpersist
      exact .inl ⟨hx, temporary, _, t₂, hmake, hfill, hpersist⟩
    · rw [hcwd] at hfilled hend
      refine .inr ⟨hx, rewritten_of_undelivered hmake hfilled (hend.imp_right fun hleft => ?_)⟩
      obtain ⟨htree, ⟨fault, hfault, hmem⟩, htwo⟩ := hleft
      exact ⟨htree, ⟨fault, (Machine.faults_serve m _).subset hfault, hlog.subset hmem⟩,
        Nat.le_trans htwo (failures_mono hlog)⟩
  · refine .inr ⟨⟨_, rfl⟩, .of_eq ?_⟩
    rcases Machine.tree_of_serve_eq_error hserve with htree | ⟨_, _, _, ⟨⟩, -⟩
    rw [htree]

/-- A file that has been replaced was delivered once its directory had been made. -/
theorem run_replaceFile_eq_ok (h : (replaceFile p bytes).run m = (.ok (), m')) :
    ∃ parent made temporary t₁ t₂,
      (Program.makeDirectories parent : Program OutputError _).run m = (.ok (.ok ()), made) ∧
      made.tree.makeTemporary m.cwd parent = .ok (temporary, t₁) ∧
      t₁.fill m.cwd temporary bytes = .ok t₂ ∧ t₂.persist m.cwd temporary p = .ok m'.tree := by
  cases hparent : p.parent? with
  | none =>
    rw [replaceFile, hparent] at h
    cases h
  | some parent =>
    rw [replaceFile_eq hparent] at h
    obtain ⟨answer, made, hmade, h⟩ := Program.run_bind_eq_ok.1 h
    cases answer with
    | error => cases h
    | ok =>
      rcases run_deliver h with ⟨-, temporary, t₁, t₂, hdelivered⟩ | ⟨⟨_, ⟨⟩⟩, -⟩
      rw [Program.cwd_of_run hmade] at hdelivered
      exact ⟨parent, made, temporary, t₁, t₂, hmade, hdelivered⟩

/-- **Replacing a file.** It has its new contents, or all files are as they were. -/
theorem rewrites_replaceFile (p : Path) (bytes : List UInt8) (m : Machine) :
    Rewrites (fun place content => place = placeOf m.cwd p ∧ content = some bytes)
      (fun _ _ => False) (replaceFile p bytes) m := by
  cases hparent : p.parent? with
  | none =>
    rw [replaceFile, hparent]
    exact .of_asks (.fail _)
  | some parent =>
    rw [replaceFile_eq hparent]
    refine .bind (.of_asks (spares_makeDirectories parent)) (fun _ _ => False.elim)
      fun answer made hmade => ?_
    cases answer with
    | error => exact .of_asks (.fail _)
    | ok =>
      constructor
      · intro _ m' hrun
        rcases run_deliver hrun with ⟨-, temporary, t₁, t₂, hmake, hfill, hpersist⟩ | ⟨⟨_, ⟨⟩⟩, -⟩
        rw [← Program.cwd_of_run hmade]
        exact .of_sets (sets_of_requests hmake hfill hpersist).2 ⟨rfl, rfl⟩
      · intro e m' hrun
        rcases run_deliver hrun with ⟨⟨⟩, -⟩ | ⟨-, hfiles⟩
        exact hfiles

/-! ## Artifacts -/

variable {previous : Option Manifest} {s s' : Progress} {items : List Keyed} {k : Keyed}

/-- An artifact that has been written is recorded, and its file was replaced, or read and left. -/
theorem of_run_writeArtifact (h : (writeArtifact root previous s k).run m = (.ok s', m')) :
    s'.manifest = s.manifest.insert k.key k.digest ∧
      ((∃ m₁ m₂, m₁.tree = m.tree ∧ m₁.cwd = m.cwd ∧ m₂.tree = m'.tree ∧
          (replaceFile (root.join k.artifact.path) k.bytes).run m₁ = (.ok (), m₂)) ∨
        m'.tree = m.tree ∧ ∃ bytes, m.tree.read m.cwd (root.join k.artifact.path) = .ok bytes) := by
  rw [writeArtifact_eq] at h
  obtain ⟨current, m₁, hcurrent, h⟩ := Program.run_bind_eq_ok.1 h
  have htree := (question_currentDigest root previous k).tree_eq m
  rw [hcurrent] at htree
  split_ifs at h with hdigest
  · cases h
    refine ⟨rfl, .inr ⟨htree, ?_⟩⟩
    subst hdigest
    unfold currentDigest at hcurrent
    split_ifs at hcurrent
    · rw [fileDigest, Program.run_request_bind] at hcurrent
      cases hread : (m.serve (.read (root.join k.artifact.path))).1 with
      | ok bytes => exact ⟨bytes, Machine.read_of_serve hread⟩
      | error cause =>
        rw [hread] at hcurrent
        cases cause <;> cases hcurrent
    · cases hcurrent
  · obtain ⟨_, m₂, hreplace, hdone⟩ := Program.run_bind_eq_ok.1 h
    cases hdone
    exact ⟨rfl, .inl ⟨m₁, m₂, htree, Program.cwd_of_run hcurrent, rfl, hreplace⟩⟩

theorem manifest_of_run_writeArtifacts
    (h : (writeArtifacts root previous s items).run m = (.ok s', m')) :
    s'.manifest = record s.manifest items := by
  induction items generalizing s m with
  | nil =>
    cases h
    rfl
  | cons k items ih =>
    obtain ⟨between, m₁, hfirst, h⟩ := Program.run_bind_eq_ok.1 h
    rw [ih h, (of_run_writeArtifact hfirst).1]
    rfl

/-- The contents of artifacts, at the places of their keys. -/
def Puts (cwd : Place) (root : Path) (own : List Artifact) : Change := fun place content =>
  ∃ a ∈ own, ∃ key, Manifest.key? a.path = some key ∧ place = placeOf cwd (root.join ⟨key⟩) ∧
    content = some (Text.utf8 a.contents)

/-- Nothing at the places of keys. -/
def Drops (cwd : Place) (root : Path) (keys : List String) : Change := fun place content =>
  ∃ key ∈ keys, place = placeOf cwd (root.join ⟨key⟩) ∧ content = none

theorem Puts.mono {own own' : List Artifact} (hsub : own ⊆ own') {place : Place}
    {content : Option (List UInt8)} (h : Puts cwd root own place content) :
    Puts cwd root own' place content := by
  obtain ⟨a, ha, h⟩ := h
  exact ⟨a, hsub ha, h⟩

theorem Drops.mono {keys keys' : List String} (hsub : keys ⊆ keys') {place : Place}
    {content : Option (List UInt8)} (h : Drops cwd root keys place content) :
    Drops cwd root keys' place content := by
  obtain ⟨key, hkey, h⟩ := h
  exact ⟨key, hsub hkey, h⟩

/-- An artifact lies where its key says. -/
theorem Keyed.Valid.placeOf_eq (h : k.Valid) (cwd : Place) (root : Path) :
    placeOf cwd (root.join k.artifact.path) = placeOf cwd (root.join ⟨k.key⟩) := by
  rw [(h.below root).placeOf_eq, (Path.below_join h.isKey.names?).placeOf_eq]
  rfl

theorem rewrites_writeArtifact (hk : k.Valid) (hcwd : m.cwd = cwd) :
    Rewrites (Puts cwd root [k.artifact]) (Puts cwd root [k.artifact])
      (writeArtifact root previous s k) m := by
  rw [writeArtifact_eq]
  refine .bind (.of_asks ((question_currentDigest root previous k).mono spares_of_question))
    (fun _ _ => id) fun current m₁ hcurrent => ?_
  split_ifs
  · exact .of_asks (.done _)
  · refine .bind ((rewrites_replaceFile _ _ m₁).mono ?_ fun _ _ => False.elim) (fun _ _ => id)
      fun _ _ _ => .of_asks (.report (.done _))
    rintro place content ⟨rfl, rfl⟩
    rw [Program.cwd_of_run hcurrent, hcwd]
    exact ⟨k.artifact, List.mem_singleton_self _, k.key, hk, hk.placeOf_eq cwd root, rfl⟩

theorem rewrites_writeArtifacts (hitems : ∀ k ∈ items, k.Valid) (hcwd : m.cwd = cwd) :
    Rewrites (Puts cwd root (items.map Keyed.artifact)) (Puts cwd root (items.map Keyed.artifact))
      (writeArtifacts root previous s items) m := by
  induction items generalizing s m with
  | nil => exact .of_asks (.done _)
  | cons k items ih =>
    have hfirst (place : Place) (content : Option (List UInt8)) :
        Puts cwd root [k.artifact] place content →
          Puts cwd root ((k :: items).map Keyed.artifact) place content := Puts.mono (by simp)
    have hrest (place : Place) (content : Option (List UInt8)) :
        Puts cwd root (items.map Keyed.artifact) place content →
          Puts cwd root ((k :: items).map Keyed.artifact) place content := Puts.mono (by simp)
    refine .bind ((rewrites_writeArtifact (hitems k List.mem_cons_self) hcwd).mono hfirst hfirst)
      (fun _ _ => id) fun s' m' hrun => ?_
    exact (ih (fun k' hk' => hitems k' (List.mem_cons_of_mem _ hk'))
      ((Program.cwd_of_run hrun).trans hcwd)).mono hrest hrest

/-! ## Removals -/

theorem spares_removeEmpty (root : Path) (directories : List Path) :
    (removeEmpty root directories).Asks Request.Spares := by
  induction directories with
  | nil => exact .done _
  | cons directory rest ih =>
    rw [removeEmpty]
    split_ifs
    · exact .done _
    · refine (Program.asks_request (r := .removeDirectory directory) trivial).bind fun answer => ?_
      cases answer with
      | ok => exact ih
      | error => exact .done _

/-- **Removing a file.** It is gone, or all files are as they were; the directories that are removed
as well hold none. -/
theorem rewrites_removeStale (key : String) (hcwd : m.cwd = cwd) :
    Rewrites (Drops cwd root [key]) (Drops cwd root [key]) (removeStale root key) m := by
  refine .bind (.of_run fun x m' hrun => ?_) (fun _ _ => id) fun answer m' hrun => ?_
  · obtain rfl : m' = (m.serve (.removeFile (root.join ⟨key⟩))).2 := (congrArg Prod.snd hrun).symm
    cases hremove : (m.serve (.removeFile (root.join ⟨key⟩))).1 with
    | error cause =>
      rcases Machine.tree_of_serve_eq_error hremove with htree | ⟨_, _, _, ⟨⟩, -⟩
      exact .of_eq (by rw [htree])
    | ok =>
      have hremoved := FileTree.settle_eq_ok.1 (Machine.reply_of_serve hremove)
      refine .of_sets (FileTree.sets_removeFile hremoved).2 ?_
      exact ⟨key, List.mem_singleton_self _, by rw [hcwd], rfl⟩
  · have hempty : Rewrites (Drops cwd root [key]) (Drops cwd root [key])
        (removeEmpty root (root.join ⟨key⟩).ancestors.tail >>= fun _ =>
          Program.log (.removedStale (root.join ⟨key⟩).text)) m' :=
      .of_asks ((spares_removeEmpty root _).bind fun _ => .report (.done _))
    split
    · exact hempty
    · exact hempty
    · exact .of_asks (.fail _)

theorem rewrites_removeAllStale (keys : List String) (hcwd : m.cwd = cwd) :
    Rewrites (Drops cwd root keys) (Drops cwd root keys) (removeAllStale root keys) m := by
  induction keys generalizing m with
  | nil => exact .of_asks (.done _)
  | cons key keys ih =>
    have hfirst (place : Place) (content : Option (List UInt8)) :
        Drops cwd root [key] place content → Drops cwd root (key :: keys) place content :=
      Drops.mono (by simp)
    have hrest (place : Place) (content : Option (List UInt8)) :
        Drops cwd root keys place content → Drops cwd root (key :: keys) place content :=
      Drops.mono (by simp)
    refine .bind ((rewrites_removeStale key hcwd).mono hfirst hfirst) (fun _ _ => id)
      fun _ m' hrun => ?_
    exact (ih ((Program.cwd_of_run hrun).trans hcwd)).mono hrest hrest

/-! ## Whole runs -/

/-- What a run may do to files before it writes its manifest: put those of its artifacts, and remove
those that only an earlier run wrote. -/
def Touches (cwd : Place) (root : Path) (own : List Artifact) (previous : Option Manifest) : Change :=
  fun place content =>
    Puts cwd root own place content ∨ Drops cwd root (dropped previous own) place content

/-- What a run may do to files: it puts its manifest as well. -/
def Leaves (cwd : Place) (root : Path) (own : List Artifact) (previous : Option Manifest) : Change :=
  fun place content => Touches cwd root own previous place content ∨
    place = placeOf cwd (Manifest.path root) ∧ content ≠ none

theorem rewrites_writeAfter (root : Path) (rep : Representation) (artifacts : List Artifact)
    (previous : Option Manifest) (hcwd : m.cwd = cwd) :
    Rewrites (Leaves cwd root (artifactsFor artifacts rep) previous)
      (Touches cwd root (artifactsFor artifacts rep) previous)
      (writeAfter root rep artifacts previous) m := by
  unfold writeAfter
  cases hkeyed : keyed (artifactsFor artifacts rep) with
  | error => exact .of_asks (.fail _)
  | ok items =>
    have hvalid : ∀ k ∈ items, k.Valid := key?_of_keyed hkeyed
    rw [← artifact_of_keyed hkeyed]
    change Rewrites _ _ (Program.makeDirectories root >>= _) m
    refine .bind (.of_asks (spares_makeDirectories root)) (fun _ _ => .inl) fun made m₁ hmade => ?_
    have hcwd₁ := (Program.cwd_of_run hmade).trans hcwd
    cases made with
    | error => exact .of_asks (.fail _)
    | ok =>
      refine .bind ((rewrites_writeArtifacts hvalid hcwd₁).mono (fun _ _ => .inl) fun _ _ => .inl)
        (fun _ _ => .inl) fun s m₂ hwrite => ?_
      have hcwd₂ := (Program.cwd_of_run hwrite).trans hcwd₁
      have hmanifest : s.manifest = manifestFor rep items := manifest_of_run_writeArtifacts hwrite
      rw [hmanifest, staleKeys_eq hvalid]
      refine .bind ((rewrites_removeAllStale _ hcwd₂).mono (fun _ _ => .inr) fun _ _ => .inr)
        (fun _ _ => .inl) fun _ m₃ hremove => ?_
      have hcwd₃ := (Program.cwd_of_run hremove).trans hcwd₂
      refine Rewrites.report ((rewrites_replaceFile _ _ m₃).mono ?_ fun _ _ => False.elim) _ _
      rintro place content ⟨rfl, rfl⟩
      exact .inr ⟨by rw [hcwd₃], Option.some_ne_none _⟩

/-- The manifest that a run goes by is that of the earlier run, unless it did not come to see it. -/
theorem previous_of_run_prepare {force : Bool} {rep : Representation}
    (h : (prepare root force rep).run m = (.ok previous, m')) :
    previous = none ∨ previous = earlier m.tree m.cwd root rep := by
  cases previous with
  | none => exact .inl rfl
  | some manifest =>
    refine .inr ?_
    obtain ⟨hmanifest, hrep⟩ := manifest?_of_prepare h
    obtain ⟨present, between, hpresent, h⟩ := Program.run_bind_eq_ok.1 h
    cases present with
    | false => cases h
    | true =>
      rw [Program.isPresent, Program.run_request_bind] at hpresent
      cases hkind : (m.serve (.kind root)).1 with
      | error cause =>
        rw [hkind] at hpresent
        cases hpresent
      | ok kind =>
        have hreply := congrArg Prod.fst (Machine.reply_of_serve hkind)
        obtain ⟨hdestination, -⟩ := FileTree.kind_eq_ok hreply
        rw [earlier, hdestination]
        dsimp only
        rw [hmanifest, Option.filter_some, if_pos (by simpa using hrep)]

/-- **What a run can do to files**, whether it succeeds or not and whichever of its requests fail. -/
theorem rewrites_writeTree (m : Machine) (root : Path) (force : Bool) (rep : Representation)
    (artifacts : List Artifact) :
    Rewrites
      (Leaves m.cwd root (artifactsFor artifacts rep) (earlier m.tree m.cwd root rep))
      (Touches m.cwd root (artifactsFor artifacts rep) (earlier m.tree m.cwd root rep))
      (writeTree root force rep artifacts) m := by
  have hnone (place : Place) (content : Option (List UInt8))
      (h : Touches m.cwd root (artifactsFor artifacts rep) none place content) :
      Touches m.cwd root (artifactsFor artifacts rep) (earlier m.tree m.cwd root rep) place
        content := by
    rcases h with hputs | ⟨key, hkey, -⟩
    · exact .inl hputs
    · cases hkey
  rw [writeTree_eq]
  refine .bind (.of_asks ((question_prepare root force rep).mono spares_of_question))
    (fun _ _ => .inl) fun previous m' hrun => ?_
  have hwrite := rewrites_writeAfter root rep artifacts previous (Program.cwd_of_run hrun)
  rcases previous_of_run_prepare hrun with rfl | rfl
  · exact hwrite.mono (fun place content => Or.imp_left (hnone place content)) hnone
  · exact hwrite

end Output

end WireSchema
