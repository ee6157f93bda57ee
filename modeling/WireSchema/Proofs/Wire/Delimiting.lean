import WireSchema.Proofs.Wire.Parsing
import WireSchema.Proofs.Wire.RecordRoundTrip

/-!
# Records delimit themselves

Records travel in streams of bytes that may stop early or go on with other data. Nothing on the wire
says how long a record is; its end follows from its contents.

**Theorem (`decode_delimited`).** If the bytes of a record are cut off anywhere, decoding runs out of
bytes. If anything follows them, decoding gives the same record as without it.

`Takes r P` says what a reader takes from the front of its input when it succeeds. A reader is
`SelfDelimiting` if it would take the same bytes in front of any other input. Composite readers are
so when their parts are, and such a reader cannot succeed on a part of what it reads as a whole,
because in front of the missing part it would stop early again (`SelfDelimiting.cut`). The check of
the type id is the only other way to fail, and on a part of the right header it is never reached.
-/

namespace WireSchema

open Wire

namespace Reader

variable {α β : Type}

/-! ## What a reader takes -/

/-- When `r` succeeds, it has taken some bytes off the front of its input, and `P` relates them to
the result. -/
def Takes (r : Reader α) (P : α → List UInt8 → Prop) : Prop :=
  ∀ i a j, r i = .ok a j → ∃ taken, i.rest = taken ++ j.rest ∧ P a taken

theorem takes_pure {P : α → List UInt8 → Prop} {a : α} (h : P a []) : Takes (pure a) P := by
  intro i b j hread
  obtain ⟨rfl, rfl⟩ := pure_eq_ok.1 hread
  exact ⟨[], rfl, h⟩

theorem Takes.bind {x : Reader α} {f : α → Reader β} {P : α → List UInt8 → Prop}
    {Q : β → List UInt8 → Prop} (hx : Takes x P)
    (hf : ∀ a front, P a front → Takes (f a) fun b back => Q b (front ++ back)) :
    Takes (x >>= f) Q := by
  intro i b k hread
  obtain ⟨a, j, ha, hb⟩ := bind_eq_ok.1 hread
  obtain ⟨front, hfront, hP⟩ := hx i a j ha
  obtain ⟨back, hback, hQ⟩ := hf a front hP j b k hb
  exact ⟨front ++ back, by rw [hfront, hback, List.append_assoc], hQ⟩

theorem Takes.map {x : Reader α} {P : α → List UInt8 → Prop} {Q : β → List UInt8 → Prop}
    (hx : Takes x P) (f : α → β) (h : ∀ a taken, P a taken → Q (f a) taken) :
    Takes (x >>= fun a => pure (f a)) Q :=
  hx.bind fun a front hP => takes_pure (by rw [List.append_nil]; exact h a front hP)

/-- Bytes are taken as they are. -/
theorem takes_take (n : Nat) : Takes (take n) fun bytes taken => taken = bytes ∧ bytes.length = n := by
  intro i bytes j hread
  obtain ⟨hle, rfl, rfl⟩ := take_eq_ok hread
  exact ⟨i.rest.take n, (List.take_append_drop n i.rest).symm, rfl, List.length_take_of_le hle⟩

/-! ## Self-delimiting readers -/

/-- What `r` takes does not depend on what follows. -/
def SelfDelimiting (r : Reader α) : Prop := Takes r fun a taken => Reads r taken a

theorem selfDelimiting_pure (a : α) : SelfDelimiting (pure a) := takes_pure (reads_pure a)

theorem SelfDelimiting.bind {x : Reader α} {f : α → Reader β} (hx : SelfDelimiting x)
    (hf : ∀ a, SelfDelimiting (f a)) : SelfDelimiting (x >>= f) := by
  refine Takes.bind hx fun a front hfront j b k hread => ?_
  obtain ⟨back, hrest, hback⟩ := hf a j b k hread
  exact ⟨back, hrest, hfront.bind hback⟩

theorem SelfDelimiting.map {x : Reader α} (hx : SelfDelimiting x) (f : α → β) :
    SelfDelimiting (x >>= fun a => pure (f a)) :=
  hx.bind fun a => selfDelimiting_pure (f a)

theorem selfDelimiting_take (n : Nat) : SelfDelimiting (take n) := by
  intro i bytes j hread
  obtain ⟨taken, hrest, rfl, rfl⟩ := takes_take n i bytes j hread
  exact ⟨taken, hrest, reads_take taken⟩

theorem selfDelimiting_scalar (type : Scalar) : SelfDelimiting (scalar type) :=
  (selfDelimiting_take type.width).map _

theorem selfDelimiting_u8 : SelfDelimiting u8 := (selfDelimiting_take 1).map _

theorem selfDelimiting_u32 : SelfDelimiting u32 := (selfDelimiting_take 4).map _

theorem selfDelimiting_counted : SelfDelimiting counted :=
  selfDelimiting_u32.bind fun length => selfDelimiting_take length.toNat

/-! ## Bytes that are cut off -/

/-- On every part of `bytes` from the start, `r` runs out of bytes. -/
def Cut (r : Reader α) (bytes : List UInt8) : Prop :=
  ∀ front back position, bytes = front ++ back → back ≠ [] →
    ∃ e j, r ⟨position, front⟩ = .error e j ∧ e.RanOut

/-- A reader that stopped before the end of the part would stop there as well with more to read. -/
theorem SelfDelimiting.cut {r : Reader α} {bytes : List UInt8} {a : α} (h : SelfDelimiting r)
    (htruncating : Truncating r) (hreads : Reads r bytes a) : Cut r bytes := by
  intro front back position hbytes hback
  cases hread : r ⟨position, front⟩ with
  | error e j => exact ⟨e, j, rfl, htruncating _ e j hread⟩
  | ok b j =>
    obtain ⟨taken, hfront, htaken⟩ := h _ b j hread
    have hfront : front = taken ++ j.rest := hfront
    have hearly := htaken position (j.rest ++ back)
    have hwhole := hreads position []
    rw [List.append_nil, hbytes, hfront, List.append_assoc, hearly] at hwhole
    have hrest : j.rest ++ back = [] := by
      injection hwhole with _ hinput
      injection hinput
    exact absurd (List.append_eq_nil_iff.1 hrest).2 hback

theorem Cut.bind {x : Reader α} {f : α → Reader β} {front back : List UInt8} {a : α}
    (hx : Cut x front) (hreads : Reads x front a) (hf : Cut (f a) back) :
    Cut (x >>= f) (front ++ back) := by
  intro part missing position hbytes hmissing
  by_cases hfront : front <+: part
  · -- The cut lies behind what `x` reads.
    obtain ⟨more, rfl⟩ := hfront
    rw [List.append_assoc] at hbytes
    have hback : back = more ++ missing := List.append_cancel_left hbytes
    obtain ⟨e, j, herror, hran⟩ := hf more missing (position + front.length) hback hmissing
    exact ⟨e, j, bind_eq_error.2 (.inr ⟨a, _, hreads position more, herror⟩), hran⟩
  · have hpart : part <+: front :=
      (List.prefix_or_prefix_of_prefix (List.prefix_append front back)
        ⟨missing, hbytes.symm⟩).resolve_left hfront
    obtain ⟨more, rfl⟩ := hpart
    have hmore : more ≠ [] := by
      rintro rfl
      exact hfront (by simp)
    obtain ⟨e, j, herror, hran⟩ := hx part more position rfl hmore
    exact ⟨e, j, bind_eq_error.2 (.inl herror), hran⟩

end Reader

/-! ## The parts of a record -/

theorem Header.selfDelimiting_read : Reader.SelfDelimiting Header.read := by
  refine Reader.selfDelimiting_u32.bind fun typeId => ?_
  refine Reader.selfDelimiting_u32.bind fun destination => ?_
  refine Reader.selfDelimiting_u32.bind fun source => ?_
  exact Reader.selfDelimiting_u8.map _

theorem Header.cut_read (h : Header) : Reader.Cut Header.read h.encode :=
  Header.selfDelimiting_read.cut Header.truncating_read h.reads_encode

/-- A part of a header is too short to have its type id compared. -/
theorem Descriptor.cut_readHeader {d : Descriptor} (hd : d.internal = false) (h : Header) :
    Reader.Cut (d.readHeader h.typeId) h.encode := by
  intro front back position hbytes hback
  obtain ⟨e, j, herror, hran⟩ := h.cut_read front back position hbytes hback
  refine ⟨e, j, ?_, hran⟩
  unfold Descriptor.readHeader
  rw [hd]
  exact Reader.bind_eq_error.2 (.inl herror)

namespace Record

theorem selfDelimiting_readFixed (fields : List Field) :
    Reader.SelfDelimiting (readFixed fields) := by
  induction fields with
  | nil => exact Reader.selfDelimiting_pure []
  | cons f fields ih =>
    unfold readFixed
    split
    · exact (Reader.selfDelimiting_scalar _).bind fun v => ih.map _
    · exact ih

theorem selfDelimiting_readTexts (fields : List Field) :
    Reader.SelfDelimiting (readTexts fields) := by
  induction fields with
  | nil => exact Reader.selfDelimiting_pure []
  | cons f fields ih =>
    unfold readTexts
    split
    · exact Reader.selfDelimiting_counted.bind fun bytes => ih.map _
    · exact ih

/-- The bytes of a record cannot be read from a part of them. -/
theorem Sound.cut_read {r : Record} (hr : r.Sound) (hi : r.descriptor.internal = false) :
    Reader.Cut (read r.descriptor r.header.typeId)
      (r.header.encode ++ r.scalars.flatMap ScalarValue.encode ++ r.texts.flatMap countedText) := by
  unfold read
  rw [List.append_assoc]
  have hheader := Descriptor.reads_header hi r.header
  have hfixed := LaidOut.reads_fixed hr
  have htexts := (LaidOut.reads_texts hr r.buffer).map fun texts =>
    Record.mk r.descriptor r.header (cellsOf 0 r.descriptor.fields r.scalars texts)
      (.ofBytes texts.flatten)
  refine (Descriptor.cut_readHeader hi r.header).bind hheader ?_
  refine ((selfDelimiting_readFixed _).cut (truncating_readFixed _) hfixed).bind hfixed ?_
  exact ((selfDelimiting_readTexts _).map _).cut ((truncating_readTexts _).map _) htexts

/-- **Records delimit themselves.** Whatever was done to a record, every proper part of its bytes
from the start is too short to be decoded, and behind all of them nothing is looked at. -/
theorem decode_delimited {d : Descriptor} (hi : d.internal = false) {r : Record}
    (hr : Reachable d r) {typeId : UInt32} (ht : r.header.typeId = typeId) :
    ∃ bytes s, r.encode = .ok bytes ∧ decode d typeId bytes = .ok s ∧
      (∀ part, part <+: bytes → part ≠ bytes → ∃ needed remaining,
        decode d typeId part = .error (.truncated needed remaining) ∧ remaining < needed) ∧
      ∀ suffix, decode d typeId (bytes ++ suffix) = .ok s := by
  obtain ⟨hsound, rfl⟩ := hr.sound
  subst ht
  have hreads := hsound.reads_packed hi
  refine ⟨_, r.packed, hsound.encode_eq hi, hreads.all.parse, ?_, hreads.parse⟩
  rintro part ⟨missing, hbytes⟩ hne
  have hmissing : missing ≠ [] := by
    rintro rfl
    exact hne (by rw [← hbytes, List.append_nil])
  obtain ⟨_, j, herror, needed, remaining, rfl, hlt⟩ :=
    hsound.cut_read hi part missing 0 hbytes.symm hmissing
  exact ⟨needed, remaining, Reader.parse_eq_error.2 ⟨j, herror⟩, hlt⟩

/-- A record with two texts, cut inside the length of the second, and with bytes behind it. -/
theorem decode_delimited_mixed : ∃ bytes s, Reachable Descriptor.mixed mixed ∧
    mixed.encode = .ok bytes ∧ bytes.length = 25 ∧
    (∃ needed remaining, decode Descriptor.mixed 7 (bytes.take 23) =
      .error (.truncated needed remaining)) ∧
    decode Descriptor.mixed 7 (bytes ++ [0, 1, 2]) = .ok s := by
  obtain ⟨bytes, s, hbytes, -, hcut, hmore⟩ := decode_delimited rfl reachable_mixed rfl
  have hlength : bytes.length = 25 := by
    cases hbytes
    rfl
  obtain ⟨needed, remaining, herror, -⟩ := hcut (bytes.take 23) (List.take_prefix _ _) (by
    intro heq
    have hlen := congrArg List.length heq
    rw [List.length_take, hlength] at hlen
    omega)
  exact ⟨bytes, s, reachable_mixed, hbytes, hlength, ⟨needed, remaining, herror⟩, hmore _⟩

end Record

end WireSchema
