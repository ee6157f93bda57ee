import WireSchema.Json.Value

/-!
# Strings between quotes

A character can be written in several ways: as it is, with a backslash and a letter, or by its code
in hexadecimal, in two halves if it is a large one. `Spells` lists the ways that the format allows,
for a reader to accept and for a writer to choose from.

A string is read as what it spells, however it is spelled (`string?_of_spelled`), and it is written
in one of the ways (`spelled_escape`).
-/

namespace WireSchema.Json

/-! ## Spellings -/

/-- A hexadecimal digit, in either case. -/
def IsHex (c : Char) (n : Nat) : Prop :=
  n < 16 ∧ (c = Nat.digitChar n ∨ c = (Nat.digitChar n).toUpper)

/-- A code unit: a backslash, the letter `u` and four hexadecimal digits. -/
inductive CodeUnit : Nat → List Char → Prop
  | digits {a b c d : Char} {w x y z : Nat} (ha : IsHex a w) (hb : IsHex b x) (hc : IsHex c y)
    (hd : IsHex d z) : CodeUnit (((w * 16 + x) * 16 + y) * 16 + z) ['\\', 'u', a, b, c, d]

/-- The letters that can stand behind a backslash, each with its character. -/
def letters : List (Char × Char) :=
  [('"', '"'), ('\\', '\\'), ('/', '/'), ('b', '\x08'), ('f', '\x0c'), ('n', '\n'), ('r', '\r'),
    ('t', '\t')]

/-- The ways to write a character between quotes. -/
inductive Spells : Char → List Char → Prop
  | plain {c : Char} (hcontrol : 0x20 ≤ c.toNat) (hquote : c ≠ '"') (hbackslash : c ≠ '\\') :
    Spells c [c]
  | letter {e c : Char} (h : (e, c) ∈ letters) : Spells c ['\\', e]
  | unit {c : Char} {cs : List Char} (h : CodeUnit c.toNat cs) : Spells c cs
  /-- The halves of a character above `0xFFFF`. -/
  | halves {c : Char} {n m : Nat} {cs ds : List Char} (hn : CodeUnit (0xD800 + n) cs)
    (hm : CodeUnit (0xDC00 + m) ds) (hlt : n < 0x400) (hlt' : m < 0x400)
    (h : c.toNat = 0x10000 + n * 0x400 + m) : Spells c (cs ++ ds)

/-- The ways to write characters between quotes. -/
inductive Spelled : List Char → List Char → Prop
  | nil : Spelled [] []
  | cons {c : Char} {s cs ds : List Char} (hc : Spells c cs) (hs : Spelled s ds) :
    Spelled (c :: s) (cs ++ ds)

/-! ## Reading -/

theorem hexDigit?_digitChar : ∀ n < 16, hexDigit? (Nat.digitChar n) = some n := by decide

theorem hexDigit?_of_isHex {c : Char} {n : Nat} (h : IsHex c n) : hexDigit? c = some n := by
  have hupper : ∀ n < 16, hexDigit? (Nat.digitChar n).toUpper = some n := by decide
  obtain ⟨hn, rfl | rfl⟩ := h
  · exact hexDigit?_digitChar n hn
  · exact hupper n hn

theorem pieces?_of_codeUnit {n : Nat} {cs : List Char} (h : CodeUnit n cs) (rest : List Char) :
    pieces? (cs ++ rest) = (pieces? rest).map fun found => (.unit n :: found.1, found.2) := by
  cases h with
  | digits ha hb hc hd =>
    simp only [List.cons_append, List.nil_append]
    rw [pieces?, hexUnit?, hexDigit?_of_isHex ha, hexDigit?_of_isHex hb, hexDigit?_of_isHex hc,
      hexDigit?_of_isHex hd]
    cases pieces? rest <;> rfl

theorem escaped?_of_mem {e c : Char} (h : (e, c) ∈ letters) : escaped? e = some c ∧ e ≠ 'u' := by
  simp only [letters, List.mem_cons, Prod.mk.injEq, List.not_mem_nil, or_false] at h
  rcases h with h | h | h | h | h | h | h | h <;> (obtain ⟨rfl, rfl⟩ := h; decide)

theorem pieces?_of_letter {e c : Char} (h : (e, c) ∈ letters) (rest : List Char) :
    pieces? ('\\' :: e :: rest) =
      (pieces? rest).map fun found => (.char c :: found.1, found.2) := by
  obtain ⟨hescaped, hu⟩ := escaped?_of_mem h
  rw [pieces?, hescaped]
  · cases pieces? rest <;> rfl
  · intro _ _ _ _ _ he
    exact absurd he hu

theorem pieces?_of_plain {c : Char} (hcontrol : 0x20 ≤ c.toNat) (hquote : c ≠ '"')
    (hbackslash : c ≠ '\\') (rest : List Char) :
    pieces? (c :: rest) = (pieces? rest).map fun found => (.char c :: found.1, found.2) := by
  rw [pieces?, if_neg (Nat.not_lt.2 hcontrol)]
  · cases pieces? rest <;> rfl
  · exact hquote
  · exact fun _ _ _ _ _ h => absurd h hbackslash
  · exact fun _ _ h => absurd h hbackslash

/-- Units that are no halves stand for themselves. -/
theorem join?_unit {n : Nat} (h : ¬(0xD800 ≤ n ∧ n < 0xE000)) (ps : List Piece) :
    join? (.unit n :: ps) = (join? ps).map (Char.ofNat n :: ·) := by
  by_cases hunit : ∃ m rest, ps = .unit m :: rest
  · obtain ⟨m, rest, rfl⟩ := hunit
    rw [join?, if_neg (by omega), if_neg (by omega)]
  · rw [join?, if_neg h]
    exact fun m rest heq => hunit ⟨m, rest, heq⟩

/-- No character has the number of a half. -/
theorem not_half (c : Char) : ¬(0xD800 ≤ c.toNat ∧ c.toNat < 0xE000) := by
  have hvalid := c.valid
  rw [UInt32.isValidChar, Nat.isValidChar] at hvalid
  have hnat : c.toNat = c.val.toNat := rfl
  omega

/-- A spelling is read as pieces that join to the character. -/
theorem exists_pieces {c : Char} {cs : List Char} (h : Spells c cs) : ∃ ps,
    (∀ rest, pieces? (cs ++ rest) =
      (pieces? rest).map fun found => (ps ++ found.1, found.2)) ∧
    ∀ qs, join? (ps ++ qs) = (join? qs).map (c :: ·) := by
  cases h with
  | plain hcontrol hquote hbackslash =>
    exact ⟨[.char c], pieces?_of_plain hcontrol hquote hbackslash, fun qs => rfl⟩
  | letter h => exact ⟨[.char c], pieces?_of_letter h, fun qs => rfl⟩
  | unit h =>
    refine ⟨[.unit c.toNat], pieces?_of_codeUnit h, fun qs => ?_⟩
    rw [List.singleton_append, join?_unit (not_half c), Char.ofNat_toNat]
  | @halves _ n m cs ds hn hm hlt hlt' h =>
    refine ⟨[.unit (0xD800 + n), .unit (0xDC00 + m)], fun rest => ?_, fun qs => ?_⟩
    · rw [List.append_assoc, pieces?_of_codeUnit hn, pieces?_of_codeUnit hm]
      cases pieces? rest <;> rfl
    · have hjoined : Char.ofNat (0x10000 + (0xD800 + n - 0xD800) * 0x400 +
          (0xDC00 + m - 0xDC00)) = c := by
        rw [Nat.add_sub_cancel_left, Nat.add_sub_cancel_left, ← h, Char.ofNat_toNat]
      simp only [List.cons_append, List.nil_append]
      rw [join?, if_pos (by omega), if_pos (by omega), hjoined]

/-- **Strings are read as what they spell.** -/
theorem string?_of_spelled {s : String} {cs : List Char} (h : Spelled s.toList cs)
    (rest : List Char) : string? (cs ++ '"' :: rest) = some (some s, rest) := by
  have hpieces (s cs : List Char) (h : Spelled s cs) :
      ∃ ps, pieces? (cs ++ '"' :: rest) = some (ps, rest) ∧ join? ps = some s := by
    induction h with
    | nil => exact ⟨[], rfl, rfl⟩
    | cons hc hs ih =>
      obtain ⟨ps, hps, hjoin⟩ := exists_pieces hc
      obtain ⟨qs, hqs, hjoin'⟩ := ih
      exact ⟨ps ++ qs, by rw [List.append_assoc, hps, hqs]; rfl, by rw [hjoin, hjoin']; rfl⟩
  obtain ⟨ps, hps, hjoin⟩ := hpieces _ _ h
  rw [string?, hps]
  simp [hjoin]

/-! ## Writing -/

theorem isHex_digitChar {n : Nat} (h : n < 16) : IsHex (Nat.digitChar n) n := ⟨h, .inl rfl⟩

/-- A control character by its code. -/
theorem codeUnit_control {n : Nat} (h : n < 0x20) :
    CodeUnit n ['\\', 'u', '0', '0', Nat.digitChar (n / 16), Nat.digitChar (n % 16)] := by
  have hzero : IsHex '0' 0 := ⟨by decide, .inl rfl⟩
  have hunit := CodeUnit.digits hzero hzero (isHex_digitChar (by omega : n / 16 < 16))
    (isHex_digitChar (by omega : n % 16 < 16))
  have hn : ((0 * 16 + 0) * 16 + n / 16) * 16 + n % 16 = n := by omega
  rwa [hn] at hunit

theorem spells_escape (c : Char) : Spells c (escape c) := by
  unfold escape
  split
  case h_8 hquote hbackslash _ _ _ _ _ =>
    by_cases hcontrol : c.toNat < 0x20
    · rw [if_pos hcontrol]
      exact .unit (codeUnit_control hcontrol)
    · rw [if_neg hcontrol]
      exact .plain (Nat.not_lt.1 hcontrol) hquote hbackslash
  all_goals exact .letter (by simp [letters])

/-- **Strings are written as the format allows.** -/
theorem spelled_escape (s : List Char) : Spelled s (s.flatMap escape) := by
  induction s with
  | nil => exact .nil
  | cons c s ih => exact .cons (spells_escape c) ih

end WireSchema.Json
