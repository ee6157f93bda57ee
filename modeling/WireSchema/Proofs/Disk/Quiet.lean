import WireSchema.Proofs.Disk.Frame

/-!
# Runs without faults

On a machine that meets no faults, what a program does depends on the tree and the working directory
alone, and all that is left of the machine is the tree. `Program.on` says what comes of a program
there, and `run_of_quiet` that it is the run.
-/

namespace WireSchema.Disk

namespace FileTree

/-- The answer to a change, and the tree after it. -/
def settle (t : FileTree) : Except OsError FileTree → Except OsError Unit × FileTree
  | .ok tree => (.ok (), tree)
  | .error error => (.error error, t)

/-- The answer to a request, and the tree after it. -/
def reply (t : FileTree) (cwd : Place) : (r : Request) → Except OsError r.Answer × FileTree
  | .kind path => (t.kind cwd path, t)
  | .read path => (t.read cwd path, t)
  | .names directory => (t.names cwd directory, t)
  | .makeDirectory path => t.settle (t.makeDirectory cwd path)
  | .makeTemporary directory =>
    match t.makeTemporary cwd directory with
    | .error error => (.error error, t)
    | .ok (temporary, tree) => (.ok temporary, tree)
  | .fill temporary bytes => t.settle (t.fill cwd temporary bytes)
  | .sync _ => (.ok (), t)
  | .persist temporary target => t.settle (t.persist cwd temporary target)
  | .discard temporary => t.settle (t.discard cwd temporary)
  | .removeFile path => t.settle (t.removeFile cwd path)
  | .removeDirectory path => t.settle (t.removeDirectory cwd path)
  | .resolve path => (t.resolve cwd path, t)
  | .workingDirectory => (.ok cwd.path, t)

theorem settle_eq_ok {t t' : FileTree} {x : Except OsError FileTree} :
    t.settle x = (.ok (), t') ↔ x = .ok t' := by
  cases x <;> simp [settle]

end FileTree

namespace Machine

theorem change_eq (m : Machine) (x : Except OsError FileTree) :
    m.change x = ((m.tree.settle x).1, { m with tree := (m.tree.settle x).2 }) := by
  cases x <;> rfl

theorem perform_eq (m : Machine) (r : Request) :
    m.perform r = ((m.tree.reply m.cwd r).1, { m with tree := (m.tree.reply m.cwd r).2 }) := by
  cases r with
  | makeTemporary directory =>
    rw [perform, makeTemporary, FileTree.reply]
    cases m.tree.makeTemporary m.cwd directory <;> rfl
  | _ => first | rfl | exact change_eq m _

theorem serve_of_quiet {m : Machine} (h : m.faults = []) (r : Request) :
    m.serve r = ((m.tree.reply m.cwd r).1, { m with tree := (m.tree.reply m.cwd r).2 }) := by
  have hserve : m.serve r = m.perform r := by rw [serve, h]
  rw [hserve, perform_eq]

end Machine

namespace Program

variable {ε δ α β : Type}

/-- What comes of a program in a tree. -/
def on (cwd : Place) : Program ε α → FileTree → Except ε α × FileTree
  | done a, t => (.ok a, t)
  | fail error, t => (.error error, t)
  | report _ rest, t => rest.on cwd t
  | print _ rest, t => rest.on cwd t
  | ask request next, t => (next (t.reply cwd request).1).on cwd (t.reply cwd request).2

/-- A machine without faults does what comes of the program in its tree. -/
theorem run_of_quiet (p : Program ε α) {m : Machine} (h : m.faults = []) :
    (p.run m).1 = (p.on m.cwd m.tree).1 ∧ (p.run m).2.tree = (p.on m.cwd m.tree).2 := by
  induction p generalizing m with
  | done | fail => exact ⟨rfl, rfl⟩
  | report _ _ ih | print _ _ ih => exact ih h
  | ask request next ih =>
    rw [run, on, Machine.serve_of_quiet h]
    exact ih _ h

/-- It meets no faults later on. -/
theorem faults_run (p : Program ε α) {m : Machine} (h : m.faults = []) :
    (p.run m).2.faults = [] := by
  induction p generalizing m with
  | done | fail => exact h
  | report _ _ ih | print _ _ ih => exact ih h
  | ask request next ih =>
    rw [run, Machine.serve_of_quiet h]
    exact ih _ h

variable {cwd : Place} {p : Program ε α} {t t' : FileTree}

theorem on_request_bind (r : Request) (f : Except OsError r.Answer → Program ε β) :
    (request r >>= f).on cwd t = (f (t.reply cwd r).1).on cwd (t.reply cwd r).2 := rfl

theorem on_demand (r : Request) (onError : OsError → ε) :
    (demand r onError).on cwd t = ((t.reply cwd r).1.mapError onError, (t.reply cwd r).2) := by
  rw [demand, on]
  cases (t.reply cwd r).1 <;> rfl

theorem on_ofExcept (x : Except ε α) : (ofExcept x).on cwd t = (x, t) := by
  cases x <;> rfl

theorem on_bind (f : α → Program ε β) :
    (p >>= f).on cwd t =
      match p.on cwd t with
      | (.ok a, between) => (f a).on cwd between
      | (.error error, between) => (.error error, between) := by
  induction p generalizing t with
  | done | fail => rfl
  | report _ _ ih | print _ _ ih => exact ih
  | ask request next ih => exact ih _

theorem on_bind_eq_ok {f : α → Program ε β} {b : β} :
    (p >>= f).on cwd t = (.ok b, t') ↔
      ∃ a between, p.on cwd t = (.ok a, between) ∧ (f a).on cwd between = (.ok b, t') := by
  rw [on_bind]
  rcases p.on cwd t with ⟨_ | a, between⟩ <;> simp

theorem on_bind_eq_error {f : α → Program ε β} {error : ε} :
    (p >>= f).on cwd t = (.error error, t') ↔
      p.on cwd t = (.error error, t') ∨
        ∃ a between, p.on cwd t = (.ok a, between) ∧ (f a).on cwd between = (.error error, t') := by
  rw [on_bind]
  rcases p.on cwd t with ⟨_ | a, between⟩ <;> simp

theorem on_mapError_eq_error {f : ε → δ} {error : δ} :
    (p.mapError f).on cwd t = (.error error, t') ↔
      ∃ e, p.on cwd t = (.error e, t') ∧ f e = error := by
  induction p generalizing t with
  | done a => exact ⟨nofun, by rintro ⟨_, ⟨⟩, -⟩⟩
  | fail e => simp [mapError, on, and_comm]
  | report _ _ ih | print _ _ ih => exact ih
  | ask request next ih => exact ih _

theorem on_isPresent (path : Path) (cwd : Place) (t : FileTree) :
    (isPresent path : Program ε Bool).on cwd t = (.ok (t.kind cwd path).toBool, t) := by
  rw [isPresent, on_request_bind, FileTree.reply]
  cases t.kind cwd path <;> rfl

theorem Asks.on_tree_eq (h : p.Asks Request.Question) (cwd : Place) (t : FileTree) :
    (p.on cwd t).2 = t :=
  (run_of_quiet p (m := { tree := t, cwd := cwd }) rfl).2.symm.trans (h.tree_eq _)

/-- What comes behind a question happens in the same tree. -/
theorem Asks.on_bind_ok (hp : p.Asks Request.Question) {f : α → Program ε β} {b : β}
    (h : (p >>= f).on cwd t = (.ok b, t')) :
    ∃ a, p.on cwd t = (.ok a, t) ∧ (f a).on cwd t = (.ok b, t') := by
  obtain ⟨a, between, hdone, hrest⟩ := on_bind_eq_ok.1 h
  have htree := hp.on_tree_eq cwd t
  rw [hdone] at htree
  obtain rfl : between = t := htree
  exact ⟨a, hdone, hrest⟩

theorem Asks.on_confined {changing making : Place → Prop}
    (h : p.Asks (Request.Within cwd changing making)) (t : FileTree) :
    FileTree.Confined changing making t (p.on cwd t).2 := by
  have hconfined := Asks.confined (m := { tree := t, cwd := cwd }) h
  rwa [(run_of_quiet p rfl).2] at hconfined

theorem FailsOnly.on {E : ε → Prop} (h : p.FailsOnly E) {error : ε}
    (hon : p.on cwd t = (.error error, t')) : E error := by
  refine h.run (m := { tree := t, cwd := cwd }) ?_
  rw [(run_of_quiet p rfl).1]
  exact congrArg Prod.fst hon

/-! ## Making directories -/

section Directories

variable {path : Path} {parents : List Path}

theorem on_isDirectory_eq_true :
    (isDirectory path : Program ε Bool).on cwd t = (.ok true, t') ↔
      t.kind cwd path = .ok .directory ∧ t' = t := by
  rw [isDirectory, on_request_bind, FileTree.reply]
  cases t.kind cwd path with
  | error => exact ⟨nofun, nofun⟩
  | ok kind =>
    cases kind with
    | file => exact ⟨nofun, nofun⟩
    | directory =>
      constructor
      · rintro ⟨⟩
        exact ⟨rfl, rfl⟩
      · rintro ⟨-, rfl⟩
        rfl

/-- A directory that could not be made, unless it is there already. -/
theorem on_check_eq_ok {cause : OsError} :
    (do if ← isDirectory path then return .ok () else return .error cause :
        Program ε (Except OsError Unit)).on cwd t = (.ok (.ok ()), t') ↔
      t.kind cwd path = .ok .directory ∧ t' = t := by
  rw [on_bind_eq_ok, ← on_isDirectory_eq_true (ε := ε)]
  constructor
  · rintro ⟨present, between, hpresent, h⟩
    cases present with
    | false => cases h
    | true =>
      cases h
      exact hpresent
  · intro h
    exact ⟨true, t', h, rfl⟩

/-- A directory is made, or was there already. -/
def Makes (t : FileTree) (cwd : Place) (path : Path) (t' : FileTree) : Prop :=
  t.makeDirectory cwd path = .ok t' ∨
    t.makeDirectory cwd path = .error .alreadyExists ∧ t.kind cwd path = .ok .directory ∧ t' = t

theorem on_makeChain_of_makes (htext : path.text ≠ "") (h : Makes t cwd path t') :
    (makeChain (path :: parents) : Program ε _).on cwd t = (.ok (.ok ()), t') := by
  rw [makeChain, if_neg htext, on_request_bind, FileTree.reply]
  rcases h with h | ⟨h, hkind, rfl⟩
  · rw [h]
    rfl
  · rw [h, FileTree.settle]
    exact on_check_eq_ok.2 ⟨hkind, rfl⟩

theorem on_makeChain_of_missing {between : FileTree} (htext : path.text ≠ "")
    (h : t.makeDirectory cwd path = .error .notFound)
    (hparents : (makeChain parents : Program ε _).on cwd t = (.ok (.ok ()), between))
    (hagain : Makes between cwd path t') :
    (makeChain (path :: parents) : Program ε _).on cwd t = (.ok (.ok ()), t') := by
  rw [makeChain, if_neg htext, on_request_bind, FileTree.reply, h, FileTree.settle]
  dsimp only
  rw [on_bind, hparents]
  dsimp only
  rw [on_request_bind, FileTree.reply]
  rcases hagain with h | ⟨h, hkind, rfl⟩
  · rw [h]
    rfl
  · rw [h, FileTree.settle]
    exact on_check_eq_ok.2 ⟨hkind, rfl⟩

/-- When directories have been made, the first of them was made last or was there already. -/
theorem of_on_makeChain_eq_ok
    (h : (makeChain (path :: parents) : Program ε _).on cwd t = (.ok (.ok ()), t')) :
    path.text = "" ∨ (∃ between, FileTree.makeDirectory between cwd path = .ok t') ∨
      t'.kind cwd path = .ok .directory := by
  by_cases htext : path.text = ""
  · exact .inl htext
  refine .inr ?_
  rw [makeChain, if_neg htext, on_request_bind, FileTree.reply] at h
  -- The first attempt may fail because a parent is missing, and then there is a second attempt.
  cases hmake : t.makeDirectory cwd path with
  | ok made =>
    rw [hmake] at h
    cases h
    exact .inl ⟨t, hmake⟩
  | error cause =>
    rw [hmake, FileTree.settle] at h
    dsimp only at h
    split at h
    · rename_i heq
      cases heq
    · obtain ⟨made, between, -, h⟩ := on_bind_eq_ok.1 h
      cases made with
      | error => cases h
      | ok =>
        dsimp only at h
        rw [on_request_bind, FileTree.reply] at h
        cases hagain : between.makeDirectory cwd path with
        | ok made =>
          rw [hagain] at h
          cases h
          exact .inl ⟨between, hagain⟩
        | error cause =>
          rw [hagain, FileTree.settle] at h
          obtain ⟨hkind, rfl⟩ := on_check_eq_ok.1 h
          exact .inr hkind
    · obtain ⟨hkind, rfl⟩ := on_check_eq_ok.1 h
      exact .inr hkind

end Directories

end Program

end WireSchema.Disk
