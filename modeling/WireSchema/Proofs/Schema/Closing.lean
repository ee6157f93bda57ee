import WireSchema.Proofs.AddressAllocation
import WireSchema.Proofs.Schema.Rendering
import WireSchema.Proofs.Schema.Shape

/-!
# Groups that are not closed

A marker with a name ends the group before it, and so does the end of the text. So a line that
closes a group can be left out where one of these comes next.

**Theorem (`closing_optional`).** If some of the lines that close a group are blanked, each of which
has a line that opens a group for its next directive or none at all, then a schema that compiles
still compiles, to the same registry, and an address schema still has the same addresses.

Both are runs of a machine that takes one line after another. What the runs with and without these
lines have in common is the part of the state that is the result: a line that opens a group depends
on nothing else, and a line that closes one changes nothing of it (`ClosesFreely`). Between a line
that was left out and the next one the states differ in whether a group is open, and that is all.
-/

namespace WireSchema

/-! ## Blanked lines -/

/-- The first directive of some lines opens a group, or there is none. -/
def OpensNext (markers : Markers) (lines : List (List Char)) : Prop :=
  ∀ outcome ∈ (lines.filterMap (Directive.ofLine? markers)).head?,
    ∃ name, outcome = .ok (.opened name)

/-- The same lines, but that some of those which close a group are blank: of these, the next
directive opens a group, if there is one. -/
inductive Blanked (markers : Markers) : List (List Char) → List (List Char) → Prop
  | nil : Blanked markers [] []
  | kept {lines lines' : List (List Char)} (line : List Char) :
    Blanked markers lines lines' → Blanked markers (line :: lines) (line :: lines')
  | blank {line blank : List Char} {lines lines' : List (List Char)} :
    Directive.ofLine? markers line = some (.ok .closed) → OpensNext markers lines →
    Text.IsBlank blank → Blanked markers lines lines' →
    Blanked markers (line :: lines) (blank :: lines')

/-- The text with some lines blanked. -/
def BlankedText (markers : Markers) (text text' : String) : Prop :=
  Blanked markers (Text.pieces text.toList) (Text.pieces text'.toList)

/-! ## Lines left out -/

/-- The first of these opens a group, or there is none. -/
def StartsOpen (items : List (Except SchemaError Line)) : Prop :=
  ∀ item ∈ items.head?, ∃ location name, item = .ok ⟨location, .opened name⟩

/-- The same lines without some of those that close a group. -/
inductive Omits : List (Except SchemaError Line) → List (Except SchemaError Line) → Prop
  | nil : Omits [] []
  | kept {items items' : List (Except SchemaError Line)} (item : Except SchemaError Line) :
    Omits items items' → Omits (item :: items) (item :: items')
  | closed {items items' : List (Except SchemaError Line)} {line : Line} :
    line.directive = .closed → StartsOpen items → Omits items items' →
    Omits (.ok line :: items) items'

variable {markers : Markers} {file : String}

theorem OpensNext.of_head {lines : List (List Char)} (name : String)
    (h : (lines.filterMap (Directive.ofLine? markers)).head? = some (.ok (.opened name))) :
    OpensNext markers lines := by
  intro outcome houtcome
  rw [h] at houtcome
  cases houtcome
  exact ⟨name, rfl⟩

theorem OpensNext.startsOpen {lines : List (List Char)} (h : OpensNext markers lines)
    (start : Nat) : StartsOpen (Line.readLines markers file start lines) := by
  induction lines generalizing start with
  | nil => simp [StartsOpen, Line.readLines]
  | cons line lines ih =>
    rw [OpensNext] at h
    rw [Line.readLines_cons, Line.ofLine?]
    cases hline : Directive.ofLine? markers line with
    | none =>
      rw [List.filterMap_cons_none hline] at h
      exact ih h (start + 1)
    | some outcome =>
      rw [List.filterMap_cons_some hline] at h
      obtain ⟨name, rfl⟩ := h outcome rfl
      intro item hitem
      cases hitem
      exact ⟨_, name, rfl⟩

theorem Directive.ofLine?_blank {blank : List Char} (h : Text.IsBlank blank) :
    ofLine? markers blank = none := by
  rw [ofLine?, Text.trimChars_of_isBlank h]

/-- Blanked lines are left out when the text is read. -/
theorem Blanked.omits {lines lines' : List (List Char)} (h : Blanked markers lines lines')
    (start : Nat) : Omits (Line.readLines markers file start lines)
      (Line.readLines markers file start lines') := by
  induction h generalizing start with
  | nil => exact .nil
  | kept line _ ih =>
    rw [Line.readLines_cons, Line.readLines_cons]
    cases Line.ofLine? markers file start line with
    | none => exact ih (start + 1)
    | some item => exact .kept item (ih (start + 1))
  | blank hline hnext hblank _ ih =>
    rw [Line.readLines_cons, Line.readLines_cons, Line.ofLine?, hline, Line.ofLine?,
      Directive.ofLine?_blank hblank]
    exact .closed rfl (hnext.startsOpen (start + 1)) (ih (start + 1))

theorem BlankedText.omits {text text' : String} (h : BlankedText markers text text') :
    Omits (Line.readAll markers file text) (Line.readAll markers file text') := by
  rw [Line.readAll_eq, Line.readAll_eq]
  exact Blanked.omits h 1

/-! ## Runs -/

/-- A machine whose result is not changed by closing a group, and for which opening a group depends
on the result only. -/
structure ClosesFreely {σ ρ : Type} (step : σ → Line → Except SchemaError σ) (result : σ → ρ) :
    Prop where
  opened : ∀ {s s' next : σ} {line : Line} {name : String}, line.directive = .opened name →
    result s = result s' → step s line = .ok next → step s' line = .ok next
  closed : ∀ {s s' : σ} {line : Line}, line.directive = .closed → step s line = .ok s' →
    result s' = result s

/-- A run without some lines that close a group comes to the same result. -/
theorem ClosesFreely.run {σ ρ : Type} {step : σ → Line → Except SchemaError σ} {result : σ → ρ}
    (hstep : ClosesFreely step result) {items items' : List (Except SchemaError Line)}
    (h : Omits items items') {s s' final : σ} (hresult : result s = result s')
    (hsame : s' = s ∨ StartsOpen items)
    (hrun : items.foldlM (fun s item => item >>= step s) s = .ok final) :
    ∃ final', items'.foldlM (fun s item => item >>= step s) s' = .ok final' ∧
      result final' = result final := by
  induction h generalizing s s' with
  | nil =>
    cases hrun
    exact ⟨s', rfl, hresult.symm⟩
  | closed hline hopen _ ih =>
    rw [List.foldlM_cons, Outcome.ok_bind] at hrun
    obtain ⟨next, hnext, hrun⟩ := Outcome.bind_eq_ok.1 hrun
    exact ih ((hstep.closed hline hnext).trans hresult) (.inr hopen) hrun
  | kept item _ ih =>
    rw [List.foldlM_cons] at hrun ⊢
    obtain ⟨next, hnext, hrun⟩ := Outcome.bind_eq_ok.1 hrun
    -- The two states differ only where a group is opened next, and that makes them equal again.
    have hnext' : (item >>= step s') = .ok next := by
      rcases hsame with rfl | hopen
      · exact hnext
      · obtain ⟨location, name, rfl⟩ := hopen item rfl
        exact hstep.opened rfl hresult hnext
    rw [hnext', Outcome.ok_bind]
    exact ih rfl (.inl rfl) hrun

/-! ## Compilation and allocation -/

namespace Compilation

variable {config : Config}

/-- Opening an interface reads the registry only. -/
theorem outcome_openInterface (c : Compilation) (location : Location) (name : String) :
    (c.openInterface config location name).outcome =
      c.registry.pushInterface (.empty name (Targets.ofName config.infixes name) location) >>=
        fun registry =>
          .ok ⟨registry, some (.empty name (Targets.ofName config.infixes name) location)⟩ := by
  unfold openInterface
  cases c.current <;> simp [Outcome.ok_bind] <;> rfl

theorem closesFreely_step :
    ClosesFreely (fun c line => (step config c line).outcome) Compilation.registry where
  opened {c c' next line name} hline hregistry h := by
    simp only [step, hline, outcome_openInterface, hregistry] at h ⊢
    exact h
  closed {c c' line} hline h := by
    cases step_of_eq_ok h with
    | closed => rfl
    | opened hline' => cases hline.symm.trans hline'
    | declared hline' => cases hline.symm.trans hline'

theorem outcome_run (c : Compilation) (items : List (Except SchemaError Line)) :
    (c.run config items).outcome =
      items.foldlM (fun c item => item >>= fun line => (step config c line).outcome) c := by
  rw [run, Traced.outcome_foldlM]
  simp only [Traced.outcome_bind]
  rfl

end Compilation

theorem compileMessages_blanked {config : Config} {text text' : String} {r : Registry}
    (hblank : BlankedText config.markers text text')
    (h : (compileMessages config ⟨file, text⟩).outcome = .ok r) :
    (compileMessages config ⟨file, text'⟩).outcome = .ok r := by
  obtain ⟨c, hrun, rfl⟩ := compileMessages_eq_ok h
  rw [Compilation.outcome_run] at hrun
  obtain ⟨c', hrun', hregistry⟩ :=
    Compilation.closesFreely_step.run hblank.omits rfl (.inl rfl) hrun
  rw [outcome_compileMessages, Compilation.outcome_run, hrun', Outcome.ok_bind, hregistry]

namespace Allocation

theorem closesFreely_step :
    ClosesFreely (fun a line => (step a line).outcome) Allocation.map where
  opened {a a' next line name} hline hmap h := by
    simp only [step, hline, openRegion_eq_ok, hmap] at h ⊢
    exact h
  closed {a a' line} hline h := by
    simp only [step, hline] at h
    obtain ⟨-, rfl⟩ := closeRegion_eq_ok.1 h
    rfl

theorem outcome_run (a : Allocation) (items : List (Except SchemaError Line)) :
    (a.run items).outcome =
      items.foldlM (fun a item => item >>= fun line => (step a line).outcome) a := by
  rw [run, Traced.outcome_foldlM]
  simp only [Traced.outcome_bind]
  rfl

end Allocation

theorem allocate_blanked {text text' : String} {m : AddressMap}
    (hblank : BlankedText markers text text')
    (h : (AddressMap.allocate markers file text).outcome = .ok m) :
    (AddressMap.allocate markers file text').outcome = .ok m := by
  rw [outcome_allocate, Allocation.outcome_run] at h
  obtain ⟨a, hrun, h⟩ := Outcome.bind_eq_ok.1 h
  obtain ⟨a', hrun', hmap⟩ := Allocation.closesFreely_step.run hblank.omits rfl (.inl rfl) hrun
  rw [outcome_allocate, Allocation.outcome_run, hrun', Outcome.ok_bind, hmap, h]

/-- **Closing is optional.** Blank any lines that close a group where another group is opened next,
or nothing follows. A message schema that compiles still does, to the same registry, and an address
schema that is accepted still is, with the same map. -/
theorem closing_optional (config : Config) (file text text' : String)
    (hblank : BlankedText config.markers text text') :
    (∀ addresses r, (compile config ⟨file, text⟩ addresses).outcome = .ok r →
      (compile config ⟨file, text'⟩ addresses).outcome = .ok r) ∧
    ∀ m, (AddressMap.allocate config.markers file text).outcome = .ok m →
      (AddressMap.allocate config.markers file text').outcome = .ok m := by
  refine ⟨fun addresses r h => ?_, fun m h => allocate_blanked hblank h⟩
  rw [outcome_compile] at h ⊢
  obtain ⟨base, hbase, h⟩ := Outcome.bind_eq_ok.1 h
  rw [compileMessages_blanked hblank hbase, Outcome.ok_bind, h]

/-- `Source.paired` without the ends of its interfaces. -/
def Source.unclosed : Source where
  file := "m"
  text := "*XFC_A\nM --member int16_t b\nN --internal\n\t\n*XGS_B\nH --member std::string t\n\n"

/-- Both interfaces of a schema are left open, and the first region of an address schema, in which
the next one stands behind a comment. -/
theorem closing_optional_paired :
    (compile {} .unclosed none).outcome = .ok .paired ∧
    (AddressMap.allocate ⟨'*', '#'⟩ "a" "*A\nx\n\n# next\n*B\ny\n*").outcome =
      .ok ⟨[⟨"A", 0, ⟨"a", 1⟩⟩, ⟨"B", 1, ⟨"a", 5⟩⟩],
        [⟨"x", 0, 0, ⟨"a", 2⟩⟩, ⟨"y", 1, 0, ⟨"a", 6⟩⟩]⟩ := by
  constructor
  · have hpaired : Text.pieces Source.paired.text.toList =
        ["*XFC_A".toList, "M --member int16_t b".toList, "N --internal".toList, ['*'],
          "*XGS_B".toList, "H --member std::string t".toList, ['*'], []] := by decide +kernel
    have hunclosed : Text.pieces Source.unclosed.text.toList =
        ["*XFC_A".toList, "M --member int16_t b".toList, "N --internal".toList, ['\t'],
          "*XGS_B".toList, "H --member std::string t".toList, [], []] := by decide +kernel
    have hend : OpensNext ⟨'*', '#'⟩ [[]] := by
      intro outcome houtcome
      cases houtcome
    have hblank : BlankedText ⟨'*', '#'⟩ Source.paired.text Source.unclosed.text := by
      rw [BlankedText, hpaired, hunclosed]
      exact .kept _ (.kept _ (.kept _ (.blank rfl (.of_head "XGS_B" rfl) (by decide)
        (.kept _ (.kept _ (.blank rfl hend (by decide) (.kept _ .nil)))))))
    exact (closing_optional {} "m" _ _ hblank).1 none .paired compile_paired
  · have hblank : BlankedText ⟨'*', '#'⟩ "*A\nx\n*\n# next\n*B\ny\n*"
        "*A\nx\n\n# next\n*B\ny\n*" :=
      .kept _ (.kept _ (.blank rfl (.of_head "B" rfl) (by decide)
        (.kept _ (.kept _ (.kept _ (.kept _ .nil))))))
    exact (closing_optional {} "a" _ _ hblank).2 _ (Outcome.of_toOption (by decide +kernel))

end WireSchema
