import WireSchema.Proofs.Disk.Quiet

/-!
# Runs with faults

A request that is answered has been carried out (`reply_of_serve`). One that fails has changed
nothing, unless it was a write, of which a part may be on the disk (`tree_of_serve_eq_error`). And
what the tree would have carried out fails by a fault only (`fault_of_serve_eq_error`). These three
say all that is needed of a machine.

The transcript of a run lists what was asked and how it was answered. From it one can tell how many
requests for temporary files have failed (`failures`).
-/

namespace WireSchema.Disk

/-! ## Answers -/

namespace FileTree

variable {t : FileTree} {cwd : Place} {r : Request} {cause : OsError}

theorem settle_of_eq_error {x : Except OsError FileTree} (h : (t.settle x).1 = .error cause) :
    (t.settle x).2 = t := by
  cases x with
  | error => rfl
  | ok tree => cases h

theorem reply_of_eq_error (h : (t.reply cwd r).1 = .error cause) : (t.reply cwd r).2 = t := by
  cases r with
  | makeTemporary directory =>
    rw [reply] at h ⊢
    split at h
    · rfl
    · cases h
  | makeDirectory | fill | persist | discard | removeFile | removeDirectory =>
    exact settle_of_eq_error h
  | kind | read | names | sync | resolve | workingDirectory => rfl

end FileTree

namespace Machine

variable {m : Machine} {r : Request}

/-- A machine answers as its tree does, or with an error of the disk. -/
theorem serve_cases (m : Machine) (r : Request) :
    (m.serve r).1 = (m.tree.reply m.cwd r).1 ∧ (m.serve r).2.tree = (m.tree.reply m.cwd r).2 ∨
      ∃ fault faults, some fault ∈ m.faults ∧ (m.serve r).1 = .error fault.error ∧
        (m.serve r).2 = { m with faults := faults }.spoil fault r := by
  unfold serve
  split
  · exact .inl (by rw [perform_eq]; exact ⟨rfl, rfl⟩)
  · exact .inl (by rw [perform_eq]; exact ⟨rfl, rfl⟩)
  · rename_i fault faults hfaults
    exact .inr ⟨fault, faults, by rw [hfaults]; exact List.mem_cons_self, rfl, rfl⟩

/-- A request that is answered has been carried out. -/
theorem reply_of_serve {answer : r.Answer} (h : (m.serve r).1 = .ok answer) :
    m.tree.reply m.cwd r = (.ok answer, (m.serve r).2.tree) := by
  rcases serve_cases m r with ⟨hanswer, htree⟩ | ⟨fault, faults, -, hanswer, -⟩
  · exact Prod.ext (hanswer.symm.trans h) htree.symm
  · rw [h] at hanswer
    cases hanswer

/-- A request that the tree would carry out fails by a fault only. -/
theorem fault_of_serve_eq_error {answer : r.Answer} {cause : OsError}
    (htree : (m.tree.reply m.cwd r).1 = .ok answer) (h : (m.serve r).1 = .error cause) :
    ∃ fault, some fault ∈ m.faults ∧ fault.error = cause := by
  rcases serve_cases m r with ⟨hanswer, -⟩ | ⟨fault, faults, hmem, hanswer, -⟩
  · rw [hanswer, htree] at h
    cases h
  · rw [hanswer] at h
    cases h
    exact ⟨fault, hmem, rfl⟩

theorem faults_spoil (m : Machine) (fault : Fault) (r : Request) :
    (m.spoil fault r).faults = m.faults := by
  cases r with
  | fill temporary bytes => rw [spoil, change_eq]
  | _ => rfl

/-- A request takes at most one fault from the schedule. -/
theorem faults_serve (m : Machine) (r : Request) : (m.serve r).2.faults <:+ m.faults := by
  have hperform (m : Machine) : (m.perform r).2.faults = m.faults := by rw [perform_eq]
  unfold serve
  split
  · exact ⟨[], hperform m⟩
  · rename_i faults hfaults
    rw [hperform, hfaults]
    exact List.suffix_cons none faults
  · rename_i fault faults hfaults
    rw [faults_spoil, hfaults]
    exact List.suffix_cons (some fault) faults

/-- A request that fails has changed nothing, but of a write a part may be there. -/
theorem tree_of_serve_eq_error {cause : OsError} (h : (m.serve r).1 = .error cause) :
    (m.serve r).2.tree = m.tree ∨ ∃ temporary bytes part, r = .fill temporary bytes ∧
      m.tree.fill m.cwd temporary part = .ok (m.serve r).2.tree := by
  rcases serve_cases m r with ⟨hanswer, htree⟩ | ⟨fault, faults, -, -, hspoilt⟩
  · rw [htree]
    rw [hanswer] at h
    exact .inl (FileTree.reply_of_eq_error h)
  · rw [hspoilt]
    cases r with
    | fill temporary bytes =>
      rw [spoil]
      cases hfill : m.tree.fill m.cwd temporary (bytes.take fault.kept) with
      | error => exact .inl rfl
      | ok tree => exact .inr ⟨temporary, bytes, _, rfl, hfill⟩
    | _ => exact .inl rfl

end Machine

/-! ## Transcripts -/

/-- A request and how it was answered. -/
abbrev Exchange : Type := (r : Request) × Except OsError r.Answer

namespace Program

variable {ε α β : Type} {p : Program ε α} {m m' : Machine}

/-- What is asked and answered in a run. -/
def transcript : Program ε α → Machine → List Exchange
  | done _, _ | fail _, _ => []
  | report event rest, m => rest.transcript { m with events := m.events ++ [event] }
  | print line rest, m => rest.transcript { m with printed := m.printed ++ [line] }
  | ask request next, m =>
    ⟨request, (m.serve request).1⟩ ::
      (next (m.serve request).1).transcript (m.serve request).2

theorem transcript_bind_of_ok {f : α → Program ε β} {a : α} (h : p.run m = (.ok a, m')) :
    (p >>= f).transcript m = p.transcript m ++ (f a).transcript m' := by
  induction p generalizing m with
  | done b =>
    cases h
    rfl
  | fail error => cases h
  | report event rest ih | print line rest ih => exact ih h
  | ask request next ih => exact congrArg (_ :: ·) (ih _ h)

theorem transcript_bind_of_error {f : α → Program ε β} {error : ε}
    (h : p.run m = (.error error, m')) : (p >>= f).transcript m = p.transcript m := by
  induction p generalizing m with
  | done b => cases h
  | fail error => rfl
  | report event rest ih | print line rest ih => exact ih h
  | ask request next ih => exact congrArg (_ :: ·) (ih _ h)

theorem transcript_request_bind (r : Request) (f : Except OsError r.Answer → Program ε β) :
    (request r >>= f).transcript m =
      ⟨r, (m.serve r).1⟩ :: (f (m.serve r).1).transcript (m.serve r).2 := rfl

theorem run_bind_eq_error {f : α → Program ε β} {error : ε} :
    (p >>= f).run m = (.error error, m') ↔
      p.run m = (.error error, m') ∨
        ∃ a between, p.run m = (.ok a, between) ∧ (f a).run between = (.error error, m') := by
  rw [run_bind]
  rcases p.run m with ⟨_ | a, between⟩ <;> simp

theorem run_request_bind (r : Request) (f : Except OsError r.Answer → Program ε β) :
    (request r >>= f).run m = (f (m.serve r).1).run (m.serve r).2 := rfl

theorem run_demand_of_ok {r : Request} {onError : OsError → ε} {answer : r.Answer}
    (h : (m.serve r).1 = .ok answer) : (demand r onError).run m = (.ok answer, (m.serve r).2) := by
  rw [demand, run, h]
  rfl

theorem run_demand_of_error {r : Request} {onError : OsError → ε} {cause : OsError}
    (h : (m.serve r).1 = .error cause) :
    (demand r onError).run m = (.error (onError cause), (m.serve r).2) := by
  rw [demand, run, h]
  rfl

/-- A request that must succeed is answered, or the run ends with it. -/
theorem run_demand_bind {r : Request} {onError : OsError → ε} {f : r.Answer → Program ε β}
    {x : Except ε β} (h : (demand r onError >>= f).run m = (x, m')) :
    (∃ answer, (m.serve r).1 = .ok answer ∧ (f answer).run (m.serve r).2 = (x, m')) ∨
      ∃ cause, (m.serve r).1 = .error cause ∧ x = .error (onError cause) ∧ m' = (m.serve r).2 := by
  rw [run_bind] at h
  cases hanswer : (m.serve r).1 with
  | ok answer =>
    rw [run_demand_of_ok hanswer] at h
    exact .inl ⟨answer, rfl, h⟩
  | error cause =>
    rw [run_demand_of_error hanswer] at h
    cases h
    exact .inr ⟨cause, rfl, rfl, rfl⟩

theorem cwd_of_run {x : Except ε α} (h : p.run m = (x, m')) : m'.cwd = m.cwd := by
  have hcwd := cwd_run p m
  rwa [h] at hcwd

theorem faults_suffix (p : Program ε α) (m : Machine) : (p.run m).2.faults <:+ m.faults := by
  induction p generalizing m with
  | done | fail => exact List.suffix_refl _
  | report _ _ ih | print _ _ ih => exact ih _
  | ask request next ih => exact (ih _ _).trans (Machine.faults_serve m request)

theorem faults_of_run {x : Except ε α} (h : p.run m = (x, m')) : m'.faults ⊆ m.faults := by
  have hfaults := faults_suffix p m
  rw [h] at hfaults
  exact hfaults.subset

end Program

/-! ## Failures -/

/-- Whether a request works on a temporary file that has been made. -/
def Request.isDelivery : Request → Bool
  | .fill .. | .sync _ | .persist .. | .discard _ => true
  | _ => false

/-- The number of requests for temporary files that have failed, whether by a fault or because of
what is in the tree. Errors of other requests do not count. Many of them are answers that a run goes
by, such as that a file is not there. -/
def failures (log : List Exchange) : Nat := log.countP fun x => x.1.isDelivery && !x.2.toBool

theorem failures_append (log log' : List Exchange) :
    failures (log ++ log') = failures log + failures log' := List.countP_append

theorem failures_mono {log log' : List Exchange} (h : log.Sublist log') :
    failures log ≤ failures log' := h.countP_le

theorem failures_cons_of_error {r : Request} (h : r.isDelivery = true) (cause : OsError)
    (log : List Exchange) : failures (⟨r, .error cause⟩ :: log) = failures log + 1 :=
  List.countP_cons_of_pos (by rw [h]; rfl)

/-- Programs that leave temporary files alone do not fail at them. -/
theorem Program.Asks.failures_eq_zero {ε α : Type} {p : Program ε α}
    (h : p.Asks (·.isDelivery = false)) (m : Machine) : failures (p.transcript m) = 0 := by
  induction h generalizing m with
  | done | fail => rfl
  | report _ ih | print _ ih => exact ih _
  | ask h _ ih =>
    rw [transcript, failures, List.countP_cons_of_neg (by simp [h])]
    exact ih _ Machine.allows_serve _

end WireSchema.Disk
