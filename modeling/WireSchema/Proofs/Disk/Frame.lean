import WireSchema.Disk.Machine
import WireSchema.Proofs.Disk.Changes

/-!
# What a program leaves alone

A program asks for one thing after the other, and what it does to a tree is what its requests do. So
it is enough to know which requests a program can make, whatever the answers are and whichever of
them fail.

**Theorem (`Asks.confined`).** If all requests of a program are confined to some places, so are the
changes of every run of it, on every machine and under every schedule of faults.

A program that only asks questions changes nothing (`Asks.tree_eq`), and the errors of a program are
those that it can end with (`FailsOnly.run`).
-/

namespace WireSchema.Disk

/-! ## Requests -/

/-- The changes from one tree to another are at the places in `changing`, and there may be new
directories at the places in `making`. -/
def FileTree.Confined (changing making : Place → Prop) (t t' : FileTree) : Prop :=
  ∀ place, ¬changing place → t'.look place = t.look place ∨
    making place ∧ t.look place = none ∧ t'.look place = some .directory

namespace FileTree.Confined

variable {changing making : Place → Prop} {t t' t'' : FileTree}

theorem refl (t : FileTree) : Confined changing making t t := fun _ _ => .inl rfl

theorem trans (h : Confined changing making t t') (h' : Confined changing making t' t'') :
    Confined changing making t t'' := by
  intro place hplace
  rcases h place hplace with heq | ⟨hmaking, hnone, hmade⟩
  · rw [← heq]
    exact h' place hplace
  · rcases h' place hplace with heq | ⟨-, hnone', -⟩
    · exact .inr ⟨hmaking, hnone, heq.trans hmade⟩
    · rw [hmade] at hnone'
      cases hnone'

theorem of_sets {place : Place} {item : Option Item} (h : Sets t t' place item)
    (hplace : changing place) : Confined changing making t t' := by
  intro other hother
  refine .inl ?_
  rw [h other, if_neg]
  rintro rfl
  exact hother hplace

theorem of_made {place : Place} (h : Sets t t' place (some .directory)) (hnone : t.look place = none)
    (hplace : making place) : Confined changing making t t' := by
  intro other _
  rw [h other]
  by_cases heq : other = place
  · rw [if_pos heq, heq]
    exact .inr ⟨hplace, hnone, rfl⟩
  · rw [if_neg heq]
    exact .inl rfl

end FileTree.Confined

namespace Request

/-- A request that changes a tree at places in `changing` only, but for directories that it makes at
places in `making`. -/
def Within (cwd : Place) (changing making : Place → Prop) : Request → Prop
  | .makeDirectory path => changing (placeOf cwd path) ∨ making (placeOf cwd path)
  | .makeTemporary directory => ∀ name, changing (placeOf cwd directory ++ [name])
  | .fill temporary _ | .discard temporary =>
    changing (FileTree.placeOfTemporary cwd temporary)
  | .persist temporary target =>
    changing (FileTree.placeOfTemporary cwd temporary) ∧ changing (placeOf cwd target)
  | .removeFile path | .removeDirectory path => changing (placeOf cwd path)
  | .kind _ | .read _ | .names _ | .sync _ | .resolve _ | .workingDirectory => True

/-- A request that changes nothing. -/
def Question : Request → Prop
  | .kind _ | .read _ | .names _ | .sync _ | .resolve _ | .workingDirectory => True
  | _ => False

/-- What is known of every answer to a request: a temporary file is in the directory that it was
asked for in. -/
def Allows : (r : Request) → Except OsError r.Answer → Prop
  | .makeTemporary directory, .ok temporary => temporary.directory = directory
  | _, _ => True

end Request

namespace Machine

variable {m : Machine} {r : Request} {changing making : Place → Prop}

theorem cwd_change (x : Except OsError FileTree) : (m.change x).2.cwd = m.cwd := by
  cases x <;> rfl

theorem cwd_perform : (m.perform r).2.cwd = m.cwd := by
  cases r with
  | makeTemporary directory =>
    rw [perform, makeTemporary]
    split <;> rfl
  | _ => first | rfl | exact cwd_change _

theorem cwd_serve : (m.serve r).2.cwd = m.cwd := by
  unfold serve
  split
  · exact cwd_perform
  · exact cwd_perform
  · unfold spoil
    split
    · exact cwd_change _
    · rfl

theorem allows_serve : r.Allows (m.serve r).1 := by
  have hperform (n : Machine) : r.Allows (n.perform r).1 := by
    cases r with
    | makeTemporary directory =>
      rw [perform, makeTemporary]
      split
      · trivial
      · rename_i temporary tree h
        exact (FileTree.sets_makeTemporary h).1
    | _ => trivial
  unfold serve
  split
  · exact hperform _
  · exact hperform _
  · cases r <;> trivial

theorem confined_change {x : Except OsError FileTree}
    (h : ∀ t, x = .ok t → FileTree.Confined changing making m.tree t) :
    FileTree.Confined changing making m.tree (m.change x).2.tree := by
  cases x with
  | error e => exact .refl _
  | ok t => exact h t rfl

theorem confined_perform (h : r.Within m.cwd changing making) :
    FileTree.Confined changing making m.tree (m.perform r).2.tree := by
  cases r with
  | makeDirectory path =>
    refine confined_change fun t ht => ?_
    obtain ⟨hnone, hsets⟩ := FileTree.sets_makeDirectory ht
    rcases h with h | h
    · exact .of_sets hsets h
    · exact .of_made hsets hnone h
  | makeTemporary directory =>
    rw [perform, makeTemporary]
    split
    · exact .refl _
    · rename_i temporary tree ht
      obtain ⟨hdirectory, -, -, hsets⟩ := FileTree.sets_makeTemporary ht
      refine .of_sets hsets ?_
      rw [FileTree.placeOfTemporary, hdirectory]
      exact h _
  | fill temporary bytes =>
    exact confined_change fun t ht => .of_sets (FileTree.sets_fill ht).2 h
  | persist temporary target =>
    refine confined_change fun t ht => ?_
    obtain ⟨bytes, between, -, -, hfrom, hto⟩ := FileTree.sets_persist ht
    exact (FileTree.Confined.of_sets hfrom h.1).trans (.of_sets hto h.2)
  | discard temporary =>
    exact confined_change fun t ht => .of_sets (FileTree.sets_discard ht).2 h
  | removeFile path =>
    exact confined_change fun t ht => .of_sets (FileTree.sets_removeFile ht).2 h
  | removeDirectory path =>
    exact confined_change fun t ht => .of_sets (FileTree.sets_removeDirectory ht).2.2 h
  | kind | read | names | sync | resolve | workingDirectory => exact .refl _

/-- A fault changes no more than the request would have done. -/
theorem confined_serve (h : r.Within m.cwd changing making) :
    FileTree.Confined changing making m.tree (m.serve r).2.tree := by
  unfold serve
  split
  · exact confined_perform h
  · rename_i faults _
    exact confined_perform (m := { m with faults := faults }) h
  · unfold spoil
    split
    · rename_i _ faults _ _ temporary bytes
      exact confined_change (m := { m with faults := faults }) fun t ht =>
        .of_sets (FileTree.sets_fill ht).2 h
    · exact .refl _

/-- What is read is in the tree, whatever fails. -/
theorem read_of_serve {path : Path} {bytes : List UInt8} (h : (m.serve (.read path)).1 = .ok bytes) :
    m.tree.read m.cwd path = .ok bytes := by
  unfold serve at h
  split at h
  · exact h
  · exact h
  · cases h

theorem tree_serve_of_question (h : r.Question) : (m.serve r).2.tree = m.tree := by
  unfold serve
  split <;> cases r <;> first | rfl | cases h

end Machine

/-! ## Programs -/

namespace Program

variable {ε δ α β : Type}

/-- All requests that a program can make satisfy `P`. -/
inductive Asks (P : Request → Prop) : Program ε α → Prop
  | done (a : α) : Asks P (.done a)
  | fail (error : ε) : Asks P (.fail error)
  | report {event : Event} {rest : Program ε α} (h : Asks P rest) : Asks P (.report event rest)
  | print {line : String} {rest : Program ε α} (h : Asks P rest) : Asks P (.print line rest)
  | ask {request : Request} {next : Except OsError request.Answer → Program ε α} (h : P request)
      (hnext : ∀ answer, request.Allows answer → Asks P (next answer)) : Asks P (.ask request next)

variable {P Q : Request → Prop} {p : Program ε α}

theorem Asks.mono (h : p.Asks P) (hPQ : ∀ r, P r → Q r) : p.Asks Q := by
  induction h with
  | done a => exact .done a
  | fail error => exact .fail error
  | report _ ih => exact .report ih
  | print _ ih => exact .print ih
  | ask h _ ih => exact .ask (hPQ _ h) ih

theorem Asks.bind {f : α → Program ε β} (h : p.Asks P) (hf : ∀ a, (f a).Asks P) :
    (p >>= f).Asks P := by
  induction h with
  | done a => exact hf a
  | fail error => exact .fail error
  | report _ ih => exact .report ih
  | print _ ih => exact .print ih
  | ask h _ ih => exact .ask h ih

theorem Asks.mapError (f : ε → δ) (h : p.Asks P) : (p.mapError f).Asks P := by
  induction h with
  | done a => exact .done a
  | fail error => exact .fail (f error)
  | report _ ih => exact .report ih
  | print _ ih => exact .print ih
  | ask h _ ih => exact .ask h ih

theorem asks_request {r : Request} (h : P r) : (request r : Program ε _).Asks P :=
  .ask h fun answer _ => .done answer

theorem asks_demand_bind {r : Request} {onError : OsError → ε} {f : r.Answer → Program ε β} (h : P r)
    (hf : ∀ answer, r.Allows (.ok answer) → (f answer).Asks P) : (demand r onError >>= f).Asks P := by
  refine .ask h fun answer hanswer => ?_
  cases answer with
  | error cause => exact .fail (onError cause)
  | ok answer => exact hf answer hanswer

theorem asks_ofExcept (x : Except ε α) : (ofExcept x).Asks P := by
  cases x with
  | error e => exact .fail e
  | ok a => exact .done a

theorem asks_isPresent (h : ∀ path, P (.kind path)) (path : Path) :
    (isPresent path : Program ε Bool).Asks P := by
  refine (asks_request (h path)).bind fun answer => ?_
  cases answer <;> exact .done _

theorem asks_isDirectory (h : ∀ path, P (.kind path)) (path : Path) :
    (isDirectory path : Program ε Bool).Asks P := by
  refine (asks_request (h path)).bind fun answer => ?_
  cases answer <;> exact .done _

theorem asks_makeChain {paths : List Path} (h : ∀ path, P (.kind path))
    (hmake : ∀ path ∈ paths, path.text ≠ "" → P (.makeDirectory path)) :
    (makeChain paths : Program ε _).Asks P := by
  have hcheck (path : Path) (cause : OsError) :
      (do if ← isDirectory path then return .ok () else return .error cause :
        Program ε (Except OsError Unit)).Asks P := by
    refine (asks_isDirectory h path).bind fun answer => ?_
    cases answer <;> exact .done _
  induction paths with
  | nil => exact .done _
  | cons path parents ih =>
    rw [makeChain]
    split_ifs with htext
    · exact .done _
    have hpath := hmake path List.mem_cons_self htext
    refine (asks_request hpath).bind fun answer => ?_
    split
    · exact .done _
    · refine (ih fun p hp => hmake p (List.mem_cons_of_mem _ hp)).bind fun made => ?_
      cases made with
      | error => exact .done _
      | ok =>
        refine (asks_request hpath).bind fun answer => ?_
        cases answer with
        | ok => exact .done _
        | error cause => exact hcheck path cause
    · exact hcheck path _

theorem cwd_run (p : Program ε α) (m : Machine) : (p.run m).2.cwd = m.cwd := by
  induction p generalizing m with
  | done | fail => rfl
  | report _ _ ih | print _ _ ih => exact ih _
  | ask request next ih => exact (ih _ _).trans Machine.cwd_serve

/-- What each request keeps is kept by a run. -/
theorem Asks.run_induction {cwd : Place} {I : FileTree → Prop}
    (hserve : ∀ (m : Machine) (r : Request), m.cwd = cwd → P r → I m.tree → I (m.serve r).2.tree)
    (h : p.Asks P) {m : Machine} (hcwd : m.cwd = cwd) (hm : I m.tree) : I (p.run m).2.tree := by
  induction h generalizing m with
  | done | fail => exact hm
  | @report event _ _ ih => exact ih (m := { m with events := m.events ++ [event] }) hcwd hm
  | @print line _ _ ih => exact ih (m := { m with printed := m.printed ++ [line] }) hcwd hm
  | @ask request _ h _ ih =>
    exact ih _ Machine.allows_serve (Machine.cwd_serve.trans hcwd) (hserve m request hcwd h hm)

/-- The changes of a run are where the requests of the program are. -/
theorem Asks.confined {changing making : Place → Prop} {m : Machine}
    (h : p.Asks (Request.Within m.cwd changing making)) :
    FileTree.Confined changing making m.tree (p.run m).2.tree := by
  refine Asks.run_induction (I := FileTree.Confined changing making m.tree)
    (fun n r hcwd hr hn => hn.trans (Machine.confined_serve ?_)) h rfl (.refl _)
  rwa [hcwd]

/-- A program that only asks questions changes nothing. -/
theorem Asks.tree_eq (h : p.Asks Request.Question) (m : Machine) : (p.run m).2.tree = m.tree :=
  Asks.run_induction (I := (· = m.tree))
    (fun _ _ _ hr hn => (Machine.tree_serve_of_question hr).trans hn) h rfl rfl

/-- All errors that a program can end with satisfy `E`. -/
inductive FailsOnly (E : ε → Prop) : Program ε α → Prop
  | done (a : α) : FailsOnly E (.done a)
  | fail {error : ε} (h : E error) : FailsOnly E (.fail error)
  | report {event : Event} {rest : Program ε α} (h : FailsOnly E rest) :
      FailsOnly E (.report event rest)
  | print {line : String} {rest : Program ε α} (h : FailsOnly E rest) :
      FailsOnly E (.print line rest)
  | ask {request : Request} {next : Except OsError request.Answer → Program ε α}
      (hnext : ∀ answer, FailsOnly E (next answer)) : FailsOnly E (.ask request next)

variable {E : ε → Prop}

theorem FailsOnly.bind {f : α → Program ε β} (h : p.FailsOnly E) (hf : ∀ a, (f a).FailsOnly E) :
    (p >>= f).FailsOnly E := by
  induction h with
  | done a => exact hf a
  | fail h => exact .fail h
  | report _ ih => exact .report ih
  | print _ ih => exact .print ih
  | ask _ ih => exact .ask ih

theorem failsOnly_request_bind {r : Request} {f : Except OsError r.Answer → Program ε β}
    (h : ∀ answer, (f answer).FailsOnly E) : (request r >>= f).FailsOnly E := .ask h

theorem FailsOnly.run (h : p.FailsOnly E) {m : Machine} {error : ε}
    (hrun : (p.run m).1 = .error error) : E error := by
  induction h generalizing m with
  | done => cases hrun
  | fail h =>
    cases hrun
    exact h
  | report _ ih | print _ ih => exact ih hrun
  | ask _ ih => exact ih _ hrun

end Program

end WireSchema.Disk
