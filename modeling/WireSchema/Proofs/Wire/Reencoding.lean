import WireSchema.Proofs.Wire.CodecSteps
import WireSchema.Proofs.Wire.Delimiting

/-!
# Encoding what was decoded

Decoders take byte strings that no encoder has made: other bytes may follow, lengths may be any
number, and a truth value may be any byte. What they make of such a string is encoded again here.

**Theorem (`encode_decoded`).** Encoding a decoded message gives the bytes that were decoded, up to
some length, but for the truth values: any byte other than zero has become a one. These bytes are
decoded to the same message again. A host message gives all of the bytes back if its last field goes
on to the end of the stream.

So two inputs are the same message exactly if they agree in the part that is read, apart from how
they write what is true. Every reader gets a statement of the form `Takes` that says which bytes it
has taken for its result. A number of any type but `bool` is its bytes (`takes_scalar`), a counted
text is its bytes behind its count (`takes_counted`), and the header is its bytes
(`Header.takes_read`). Places of bytes are counted from the start of the message, so the parts are
put together by `settled_append`.
-/

namespace WireSchema

open Wire

/-! ## Truth values among bytes -/

/-- The places of the truth values in bytes that hold numbers of the given types from `start` on. -/
def boolPlaces (start : Nat) : List Scalar → List Nat
  | [] => []
  | type :: types =>
    if type = .bool then start :: boolPlaces (start + type.width) types
    else boolPlaces (start + type.width) types

/-- The bytes from `start` on with a one for everything but zero at the given places. -/
def settled (places : List Nat) (start : Nat) (bytes : List UInt8) : List UInt8 :=
  bytes.mapIdx fun i b => if start + i ∈ places ∧ b ≠ 0 then 1 else b

@[simp] theorem length_settled (places : List Nat) (start : Nat) (bytes : List UInt8) :
    (settled places start bytes).length = bytes.length := by
  rw [settled, List.length_mapIdx]

theorem settled_append (places : List Nat) (start : Nat) (front back : List UInt8) :
    settled places start (front ++ back) =
      settled places start front ++ settled places (start + front.length) back := by
  rw [settled, List.mapIdx_append, settled, settled]
  congr 1
  refine congrArg (List.mapIdx · back) (funext fun i => ?_)
  rw [Nat.add_assoc, Nat.add_comm front.length]

theorem getElem?_settled (places : List Nat) (start : Nat) (bytes : List UInt8) (i : Nat) :
    (settled places start bytes)[i]? =
      bytes[i]?.map fun b => if start + i ∈ places ∧ b ≠ 0 then 1 else b := by
  rw [settled, List.getElem?_mapIdx]

/-- Only the places inside the bytes matter. -/
theorem settled_congr {places places' : List Nat} {start : Nat} {bytes : List UInt8}
    (h : ∀ i, start ≤ i → i < start + bytes.length → (i ∈ places ↔ i ∈ places')) :
    settled places start bytes = settled places' start bytes := by
  apply List.ext_getElem?
  intro i
  rw [getElem?_settled, getElem?_settled]
  by_cases hi : i < bytes.length
  · have hplace := h (start + i) (Nat.le_add_right ..) (Nat.add_lt_add_left hi start)
    simp only [hplace]
  · rw [List.getElem?_eq_none (Nat.not_lt.1 hi)]
    rfl

/-- Bytes without a truth value among them stay as they are. -/
theorem settled_eq_self {places : List Nat} {start : Nat} {bytes : List UInt8}
    (h : ∀ i, start ≤ i → i < start + bytes.length → i ∉ places) :
    settled places start bytes = bytes := by
  have hnone : settled places start bytes = settled [] start bytes :=
    settled_congr fun i hle hlt => by simp [h i hle hlt]
  rw [hnone]
  apply List.ext_getElem?
  intro i
  simp [getElem?_settled]

theorem Scalar.width_pos (type : Scalar) : 0 < type.width := by
  cases type <;> decide

/-- Bytes of all numbers together. -/
def totalWidth (types : List Scalar) : Nat := (types.map Scalar.width).sum

/-- A truth value stands behind the numbers before it. -/
theorem mem_boolPlaces {start i : Nat} {types : List Scalar} :
    i ∈ boolPlaces start types ↔
      ∃ front back, types = front ++ .bool :: back ∧ i = start + totalWidth front := by
  induction types generalizing start with
  | nil => simp [boolPlaces]
  | cons type types ih =>
    have hsplit : i ∈ boolPlaces start (type :: types) ↔
        (type = .bool ∧ i = start) ∨ i ∈ boolPlaces (start + type.width) types := by
      rw [boolPlaces]
      split <;> simp [*]
    rw [hsplit, ih]
    constructor
    · rintro (⟨rfl, rfl⟩ | ⟨front, back, rfl, rfl⟩)
      · exact ⟨[], types, rfl, rfl⟩
      · exact ⟨type :: front, back, rfl, Nat.add_assoc ..⟩
    · rintro ⟨front, back, htypes, rfl⟩
      cases front with
      | nil =>
        cases htypes
        exact .inl ⟨rfl, rfl⟩
      | cons first front =>
        cases htypes
        exact .inr ⟨front, back, rfl, (Nat.add_assoc ..).symm⟩

theorem le_of_mem_boolPlaces {start i : Nat} {types : List Scalar}
    (h : i ∈ boolPlaces start types) : start ≤ i ∧ i < start + totalWidth types := by
  obtain ⟨front, back, rfl, rfl⟩ := mem_boolPlaces.1 h
  have htotal : totalWidth (front ++ .bool :: back) = totalWidth front + (1 + totalWidth back) := by
    rw [totalWidth, List.map_append, List.sum_append]
    rfl
  omega

/-- Behind the first number, the truth values are those of the other numbers. -/
theorem mem_boolPlaces_cons {start i : Nat} {type : Scalar} {types : List Scalar}
    (h : start + type.width ≤ i) :
    i ∈ boolPlaces start (type :: types) ↔ i ∈ boolPlaces (start + type.width) types := by
  have hwidth := type.width_pos
  rw [boolPlaces]
  split
  · rw [List.mem_cons]
    exact or_iff_right (by omega)
  · rfl

/-! ## Numbers -/

theorem ScalarValue.code_ofCode {type : Scalar} (htype : type ≠ .bool) {n : Nat}
    (hn : n < 256 ^ type.width) : (ofCode type n).code = n := by
  cases type with
  | bool => exact absurd rfl htype
  | u8 => exact UInt8.toNat_ofNat_of_lt' hn
  | u16 => exact UInt16.toNat_ofNat_of_lt' hn
  | u32 => exact UInt32.toNat_ofNat_of_lt' hn
  | u64 => exact UInt64.toNat_ofNat_of_lt' hn
  | i8 => exact UInt8.toNat_ofNat_of_lt' hn
  | i16 => exact UInt16.toNat_ofNat_of_lt' hn
  | i32 => exact UInt32.toNat_ofNat_of_lt' hn
  | i64 => exact UInt64.toNat_ofNat_of_lt' hn
  | f32 => exact UInt32.toNat_ofNat_of_lt' hn
  | f64 => exact UInt64.toNat_ofNat_of_lt' hn

/-- Every number but a truth value is written as it was read. -/
theorem ScalarValue.encode_decode {type : Scalar} (htype : type ≠ .bool) {bytes : List UInt8}
    (hlen : bytes.length = type.width) : (decode type bytes).encode = bytes := by
  have hlt := ofBigEndian_lt bytes
  rw [hlen] at hlt
  rw [encode, decode, type_ofCode, code_ofCode htype hlt, ← hlen, bigEndian_ofBigEndian]

theorem ScalarValue.encode_decode_bool (b : UInt8) :
    (decode .bool [b]).encode = [if b ≠ 0 then 1 else b] := by
  by_cases hb : b = 0
  · rw [hb]
    rfl
  · have hcode : ofBigEndian [b] ≠ 0 := by
      intro h
      apply hb
      apply UInt8.toNat_inj.1
      simpa [ofBigEndian] using h
    rw [if_pos hb, encode, decode, type_ofCode, ofCode, bne_iff_ne.2 hcode]
    rfl

/-! ## What readers take -/

namespace Reader

/-- The bytes of a number, wherever it stands and whatever numbers follow. -/
theorem takes_scalar (type : Scalar) : Takes (scalar type) fun v taken =>
    taken.length = type.width ∧
      ∀ start types, v.encode = settled (boolPlaces start (type :: types)) start taken := by
  refine (takes_take type.width).map _ ?_
  rintro bytes taken ⟨rfl, hlen⟩
  refine ⟨hlen, fun start types => ?_⟩
  by_cases htype : type = .bool
  · subst htype
    obtain ⟨b, rfl⟩ := List.length_eq_one_iff.1 hlen
    rw [ScalarValue.encode_decode_bool, settled]
    simp [boolPlaces]
  · rw [ScalarValue.encode_decode htype hlen, settled_eq_self]
    intro i hle hlt hmem
    rw [boolPlaces, if_neg htype] at hmem
    have hbehind := (le_of_mem_boolPlaces hmem).1
    omega

theorem takes_u32 : Takes u32 fun n taken => taken = bigEndian 4 n.toNat := by
  refine (takes_take 4).map _ ?_
  rintro bytes taken ⟨rfl, hlen⟩
  have hlt := ofBigEndian_lt taken
  rw [hlen] at hlt
  rw [UInt32.toNat_ofNat_of_lt' hlt, ← hlen, bigEndian_ofBigEndian]

theorem takes_u8 : Takes u8 fun n taken => taken = bigEndian 1 n.toNat := by
  refine (takes_take 1).map _ ?_
  rintro bytes taken ⟨rfl, hlen⟩
  have hlt := ofBigEndian_lt taken
  rw [hlen] at hlt
  rw [UInt8.toNat_ofNat_of_lt' hlt, ← hlen, bigEndian_ofBigEndian]

theorem takes_counted : Takes counted fun bytes taken => taken = countedText bytes := by
  refine takes_u32.bind ?_
  rintro length _ rfl i bytes j hread
  obtain ⟨taken, hrest, rfl, hlen⟩ := takes_take _ i bytes j hread
  refine ⟨taken, hrest, ?_⟩
  show bigEndian 4 length.toNat ++ taken = countedText taken
  rw [← hlen]
  rfl

end Reader

theorem Header.takes_read : Reader.Takes Header.read fun h taken => taken = h.encode := by
  refine Reader.takes_u32.bind ?_
  rintro typeId _ rfl
  refine Reader.takes_u32.bind ?_
  rintro destination _ rfl
  refine Reader.takes_u32.bind ?_
  rintro source _ rfl
  refine Reader.takes_u8.map _ ?_
  rintro number _ rfl
  rw [Header.encode, List.append_assoc, List.append_assoc]

/-- A header that was accepted is one of the right type, and the message has a wire form. -/
theorem Descriptor.readHeader_eq_ok {d : Descriptor} {typeId : UInt32} {i j : Input}
    {header : Header} (h : d.readHeader typeId i = .ok header j) :
    d.internal = false ∧ header.typeId = typeId ∧ i.rest = header.encode ++ j.rest := by
  unfold Descriptor.readHeader at h
  by_cases hd : d.internal = true
  · rw [if_pos hd] at h
    cases h
  · rw [if_neg hd] at h
    obtain ⟨found, k, hfound, h⟩ := Reader.bind_eq_ok.1 h
    obtain ⟨_, hrest, rfl⟩ := Header.takes_read i found k hfound
    by_cases htype : found.typeId = typeId
    · rw [htype, bne_self_eq_false] at h
      obtain ⟨rfl, rfl⟩ := Reader.pure_eq_ok.1 h
      exact ⟨Bool.eq_false_iff.2 hd, htype, hrest⟩
    · rw [if_pos (bne_iff_ne.2 htype)] at h
      cases h

/-! ## The same bytes again -/

/-- `out` is the start of `bytes`, with a one for everything but zero at the given places. -/
structure Resembles (places : List Nat) (bytes out : List UInt8) : Prop where
  length_le : out.length ≤ bytes.length
  byte : ∀ i b, i < out.length → bytes[i]? = some b →
    out[i]? = some (if i ∈ places ∧ b ≠ 0 then 1 else b)

theorem resembles_settled (places : List Nat) (taken rest : List UInt8) :
    Resembles places (taken ++ rest) (settled places 0 taken) where
  length_le := by
    rw [length_settled, List.length_append]
    exact Nat.le_add_right ..
  byte i b hi hb := by
    rw [length_settled] at hi
    rw [List.getElem?_append_left hi] at hb
    rw [getElem?_settled, hb, Option.map_some, Nat.zero_add]

/-- No truth value stands in the header. -/
theorem settled_header (types : List Scalar) (h : Header) (back : List UInt8) :
    settled (boolPlaces Header.size types) 0 (h.encode ++ back) =
      h.encode ++ settled (boolPlaces Header.size types) Header.size back := by
  rw [settled_append, Header.length_encode, Nat.zero_add, settled_eq_self]
  intro i _ hlt hmem
  have hbehind := (le_of_mem_boolPlaces hmem).1
  rw [Header.length_encode] at hlt
  omega

/-! ## Records -/

/-- The type of the number that a record has for a field. -/
def Field.number? (f : Field) : Option Scalar :=
  match f.kind with
  | .scalar type => some type
  | _ => none

/-- The places of the truth values in the bytes of a record. -/
def Descriptor.recordBools (d : Descriptor) : List Nat :=
  boolPlaces Header.size (d.fields.filterMap Field.number?)

namespace Record

theorem takes_readFixed (fields : List Field) (start : Nat) :
    Reader.Takes (readFixed fields) fun values taken =>
      taken.length = totalWidth (fields.filterMap Field.number?) ∧
        values.flatMap ScalarValue.encode =
          settled (boolPlaces start (fields.filterMap Field.number?)) start taken := by
  induction fields generalizing start with
  | nil => exact Reader.takes_pure ⟨rfl, rfl⟩
  | cons f fields ih =>
    unfold readFixed
    cases hkind : f.kind with
    | scalar type =>
      have hnumber : f.number? = some type := by rw [Field.number?, hkind]
      rw [List.filterMap_cons_some hnumber]
      -- The truth values behind this scalar have their places counted from its end.
      refine (Reader.takes_scalar type).bind ?_
      rintro v front ⟨hlen, hfront⟩
      refine (ih (start + type.width)).map _ ?_
      rintro values back ⟨hback, hvalues⟩
      refine ⟨?_, ?_⟩
      · rw [List.length_append, hlen, hback]
        rfl
      · rw [List.flatMap_cons, settled_append, hvalues, hfront start, hlen]
        congr 1
        exact settled_congr fun i hle _ => (mem_boolPlaces_cons hle).symm
    | text =>
      have hnumber : f.number? = none := by rw [Field.number?, hkind]
      rw [List.filterMap_cons_none hnumber]
      exact ih start
    | owned core =>
      have hnumber : f.number? = none := by rw [Field.number?, hkind]
      rw [List.filterMap_cons_none hnumber]
      exact ih start

theorem takes_readTexts (fields : List Field) : Reader.Takes (readTexts fields) fun texts taken =>
    taken = texts.flatMap countedText := by
  induction fields with
  | nil => exact Reader.takes_pure rfl
  | cons f fields ih =>
    unfold readTexts
    split
    · refine Reader.takes_counted.bind ?_
      rintro bytes _ rfl
      refine ih.map _ ?_
      rintro texts _ rfl
      rw [List.flatMap_cons]
    · exact ih

/-- No truth value stands behind the numbers. -/
theorem settled_texts (fields : List Field) {fixed : List UInt8}
    (hlen : fixed.length = totalWidth (fields.filterMap Field.number?)) (back : List UInt8) :
    settled (boolPlaces Header.size (fields.filterMap Field.number?)) Header.size (fixed ++ back) =
      settled (boolPlaces Header.size (fields.filterMap Field.number?)) Header.size fixed ++
        back := by
  rw [settled_append]
  congr 1
  apply settled_eq_self
  intro i hle _ hmem
  have hbefore := (le_of_mem_boolPlaces hmem).2
  omega

/-- A decoded record is encoded to the bytes that were read for it, and they are decoded to it. -/
theorem encode_of_decode {d : Descriptor} {typeId : UInt32} {bytes : List UInt8} {r : Record}
    (h : decode d typeId bytes = .ok r) :
    ∃ taken rest, bytes = taken ++ rest ∧ r.encode = .ok (settled d.recordBools 0 taken) ∧
      decode d typeId (settled d.recordBools 0 taken) = .ok r := by
  obtain ⟨hsound, -⟩ := sound_decode h
  obtain ⟨header, values, texts, i, j, k, hheader, hvalues, htexts, rfl⟩ := decode_eq_ok h
  obtain ⟨hi, rfl, hfront⟩ := Descriptor.readHeader_eq_ok hheader
  obtain ⟨fixed, hmiddle, hlen, hfixed⟩ := takes_readFixed d.fields Header.size i values j hvalues
  obtain ⟨_, hback, rfl⟩ := takes_readTexts d.fields j texts k htexts
  have hout : settled d.recordBools 0 (header.encode ++ (fixed ++ texts.flatMap countedText)) =
      header.encode ++ values.flatMap ScalarValue.encode ++ texts.flatMap countedText := by
    rw [Descriptor.recordBools, settled_header, settled_texts d.fields hlen, ← hfixed,
      List.append_assoc]
  have hencode := hsound.encode_eq hi
  have hdecode := (hsound.reads_packed hi).all.parse
  -- A decoded record is packed already: its texts lie behind each other without gaps.
  obtain ⟨hscalars, hread⟩ := contents_cellsOf hvalues htexts []
  have hscalars : Record.scalars ⟨d, header, cellsOf 0 d.fields values texts,
    .ofBytes texts.flatten⟩ = values := hscalars
  have hread : Record.texts ⟨d, header, cellsOf 0 d.fields values texts,
    .ofBytes texts.flatten⟩ = texts := hread
  rw [hscalars, hread, ← hout] at hencode
  rw [packed, hscalars, hread, ← hout] at hdecode
  refine ⟨_, k.rest, ?_, hencode, hdecode⟩
  rw [List.append_assoc, List.append_assoc, ← hback, ← hmiddle]
  exact hfront

end Record

/-! ## Host messages -/

/-- The type of the number that the host stream has for a field. -/
def Field.streamedNumber? (f : Field) : Option Scalar :=
  match f.kind with
  | .scalar type | .owned (.scalar type) => some type
  | _ => none

theorem Field.streamedNumber?_eq_none_iff {f : Field} :
    f.streamedNumber? = none ↔ f.kind.streamDelimited = true := by
  rw [Field.streamedNumber?]
  cases f.kind with
  | scalar type => simp [FieldKind.streamDelimited]
  | text => simp [FieldKind.streamDelimited]
  | owned core => cases core <;> simp [FieldKind.streamDelimited]

/-- The places of the truth values in the bytes of a host message. -/
def Descriptor.streamBools (d : Descriptor) : List Nat :=
  boolPlaces Header.size (d.fields.filterMap Field.streamedNumber?)

namespace Message

/-- A field with a number is read as that number. -/
theorem readValue_number {f : Field} {type : Scalar} (h : f.streamedNumber? = some type) :
    ∃ make : ScalarValue → Value,
      readValue f.kind = (Reader.scalar type >>= fun v => pure (make v)) ∧
        ∀ v, (make v).streamed = v.encode := by
  unfold Field.streamedNumber? at h
  split at h <;> rename_i hkind
  · cases h
    rw [hkind]
    exact ⟨Value.scalar, rfl, fun v => rfl⟩
  · cases h
    rw [hkind]
    exact ⟨fun v => .owned (.scalar v), rfl, fun v => rfl⟩
  · cases h

/-- A field without a number takes everything that is left. -/
theorem readValue_rest {f : Field} (h : f.streamedNumber? = none) :
    ∃ make : List UInt8 → Value,
      readValue f.kind = (Reader.takeRest >>= fun bytes => pure (make bytes)) ∧
        ∀ bytes, (make bytes).streamed = bytes := by
  unfold Field.streamedNumber? at h
  cases hkind : f.kind with
  | scalar type => simp [hkind] at h
  | text => exact ⟨Value.text, rfl, fun bytes => rfl⟩
  | owned core =>
    cases core with
    | scalar type => simp [hkind] at h
    | text => exact ⟨fun bytes => .owned (.text bytes), rfl, fun bytes => rfl⟩
    | foreign path => exact ⟨Value.foreign, rfl, fun bytes => rfl⟩

theorem takes_readValue {f : Field} {type : Scalar} (h : f.streamedNumber? = some type) :
    Reader.Takes (readValue f.kind) fun v taken => taken.length = type.width ∧
      ∀ start types, v.streamed = settled (boolPlaces start (type :: types)) start taken := by
  obtain ⟨make, hread, hstreamed⟩ := readValue_number h
  rw [hread]
  refine (Reader.takes_scalar type).map make ?_
  rintro v taken ⟨hlen, hv⟩
  exact ⟨hlen, fun start types => by rw [hstreamed, hv start types]⟩

theorem rest_of_readValue {f : Field} (h : f.streamedNumber? = none) {i j : Input} {v : Value}
    (hread : readValue f.kind i = .ok v j) : v.streamed = i.rest ∧ j.rest = [] := by
  obtain ⟨make, hmake, hstreamed⟩ := readValue_rest h
  rw [hmake] at hread
  obtain ⟨bytes, k, htake, hread⟩ := Reader.bind_eq_ok.1 hread
  obtain ⟨rfl, rfl⟩ := Reader.pure_eq_ok.1 hread
  cases htake
  exact ⟨hstreamed _, List.drop_length⟩

/-- Where nothing is left, no number is read. -/
theorem numbers_eq_nil {fields : List Field} {i j : Input} {values : List Value}
    (h : readValues fields i = .ok values j) (hi : i.rest = []) :
    fields.filterMap Field.streamedNumber? = [] := by
  induction fields generalizing i values with
  | nil => rfl
  | cons f fields ih =>
    obtain ⟨v, k, hv, h⟩ := Reader.bind_eq_ok.1 h
    obtain ⟨rest, l, hrest, h⟩ := Reader.bind_eq_ok.1 h
    obtain ⟨-, rfl⟩ := Reader.pure_eq_ok.1 h
    cases hnumber : f.streamedNumber? with
    | none =>
      rw [List.filterMap_cons_none hnumber]
      exact ih hrest (rest_of_readValue hnumber hv).2
    | some type =>
      obtain ⟨taken, htaken, hlen, -⟩ := takes_readValue hnumber i v k hv
      rw [hi] at htaken
      have hnil := (List.append_eq_nil_iff.1 htaken.symm).1
      have hwidth := type.width_pos
      rw [hnil, List.length_nil] at hlen
      omega

/-- The values of fields are encoded to the bytes that were read for them. -/
theorem streamed_of_readValues {fields : List Field} {i j : Input} {values : List Value}
    (h : readValues fields i = .ok values j) (start : Nat) :
    ∃ taken, i.rest = taken ++ j.rest ∧ values.flatMap Value.streamed =
      settled (boolPlaces start (fields.filterMap Field.streamedNumber?)) start taken := by
  induction fields generalizing i values start with
  | nil =>
    obtain ⟨rfl, rfl⟩ := Reader.pure_eq_ok.1 h
    exact ⟨[], rfl, rfl⟩
  | cons f fields ih =>
    obtain ⟨v, k, hv, h⟩ := Reader.bind_eq_ok.1 h
    obtain ⟨rest, l, hrest, h⟩ := Reader.bind_eq_ok.1 h
    obtain ⟨rfl, rfl⟩ := Reader.pure_eq_ok.1 h
    cases hnumber : f.streamedNumber? with
    | some type =>
      obtain ⟨front, hfront, hlen, hstreamed⟩ := takes_readValue hnumber i v k hv
      obtain ⟨back, hback, hvalues⟩ := ih hrest (start + type.width)
      refine ⟨front ++ back, by rw [hfront, hback, List.append_assoc], ?_⟩
      rw [List.filterMap_cons_some hnumber, List.flatMap_cons, settled_append, hvalues,
        hstreamed start, hlen]
      congr 1
      exact settled_congr fun i hle _ => (mem_boolPlaces_cons hle).symm
    | none =>
      -- Nothing is left for the other fields, so none of them is a number.
      obtain ⟨hstreamed, hnothing⟩ := rest_of_readValue hnumber hv
      have hnumbers := numbers_eq_nil hrest hnothing
      obtain ⟨back, hback, hvalues⟩ := ih hrest start
      rw [hnothing] at hback
      obtain ⟨hback, hend⟩ := List.append_eq_nil_iff.1 hback.symm
      refine ⟨i.rest, by rw [hend, List.append_nil], ?_⟩
      have hplain : settled [] start i.rest = i.rest := settled_eq_self (by simp)
      rw [List.filterMap_cons_none hnumber, List.flatMap_cons, hvalues, hback, hstreamed, hnumbers,
        boolPlaces, hplain]
      exact List.append_nil _

/-- What the values of fields are encoded to is read as these values again. -/
theorem readsAll_of_readValues {fields : List Field} {i j : Input} {values : List Value}
    (h : readValues fields i = .ok values j) :
    Reader.ReadsAll (readValues fields) (values.flatMap Value.streamed) values := by
  induction fields generalizing i values with
  | nil =>
    obtain ⟨rfl, -⟩ := Reader.pure_eq_ok.1 h
    exact (Reader.reads_pure []).all
  | cons f fields ih =>
    obtain ⟨v, k, hv, h⟩ := Reader.bind_eq_ok.1 h
    obtain ⟨rest, l, hrest, h⟩ := Reader.bind_eq_ok.1 h
    obtain ⟨rfl, rfl⟩ := Reader.pure_eq_ok.1 h
    have hfits := fits_of_readValue hv
    have htail := (ih hrest).map (v :: ·)
    rw [List.flatMap_cons]
    cases hdelimited : f.kind.streamDelimited with
    | false => exact (reads_value hfits hdelimited).bindAll htail
    | true =>
      -- The other fields had no bytes, so they have none to be read from now.
      obtain ⟨-, hnothing⟩ :=
        rest_of_readValue (Field.streamedNumber?_eq_none_iff.2 hdelimited) hv
      obtain ⟨back, hback, hvalues⟩ := streamed_of_readValues hrest 0
      rw [hnothing] at hback
      have hempty : rest.flatMap Value.streamed = [] := by
        rw [hvalues, (List.append_eq_nil_iff.1 hback.symm).1]
        rfl
      rw [hempty] at htail ⊢
      rw [List.append_nil]
      exact (readsAll_value hfits).bind htail

/-- A last field without a number leaves nothing. -/
theorem rest_of_readValues {fields : List Field} {f : Field} (hlast : fields.getLast? = some f)
    (hf : f.streamedNumber? = none) {i j : Input} {values : List Value}
    (h : readValues fields i = .ok values j) : j.rest = [] := by
  induction fields generalizing i values with
  | nil => cases hlast
  | cons g fields ih =>
    obtain ⟨v, k, hv, h⟩ := Reader.bind_eq_ok.1 h
    obtain ⟨rest, l, hrest, h⟩ := Reader.bind_eq_ok.1 h
    obtain ⟨-, rfl⟩ := Reader.pure_eq_ok.1 h
    cases fields with
    | nil =>
      cases hlast
      obtain ⟨-, rfl⟩ := Reader.pure_eq_ok.1 hrest
      exact (rest_of_readValue hf hv).2
    | cons g' fields =>
      rw [List.getLast?_cons_cons] at hlast
      exact ih hlast hrest

/-- A decoded message is encoded to the bytes that were read for it, and they are decoded to it.
These are all bytes if the last field is no number. -/
theorem encode_of_decode {d : Descriptor} {typeId : UInt32} {bytes : List UInt8} {m : Message}
    (h : decode d typeId bytes = .ok m) :
    ∃ taken rest, bytes = taken ++ rest ∧ m.encode = .ok (settled d.streamBools 0 taken) ∧
      decode d typeId (settled d.streamBools 0 taken) = .ok m ∧
      ∀ f, d.fields.getLast? = some f → f.streamedNumber? = none → rest = [] := by
  obtain ⟨header, values, i, j, hheader, hvalues, rfl⟩ := decode_eq_ok h
  obtain ⟨hi, rfl, hfront⟩ := Descriptor.readHeader_eq_ok hheader
  obtain ⟨taken, hback, hstreamed⟩ := streamed_of_readValues hvalues Header.size
  have hout : settled d.streamBools 0 (header.encode ++ taken) =
      header.encode ++ values.flatMap Value.streamed := by
    rw [Descriptor.streamBools, settled_header, hstreamed]
  have hread : Reader.ReadsAll (read d header.typeId)
      (header.encode ++ values.flatMap Value.streamed) ⟨d, header, values⟩ :=
    (Descriptor.reads_header hi header).bindAll
      ((readsAll_of_readValues hvalues).map (Message.mk d header))
  refine ⟨header.encode ++ taken, j.rest, ?_, ?_, ?_, fun f hlast hf => ?_⟩
  · rw [List.append_assoc, ← hback]
    exact hfront
  · rw [encode, if_neg (by simp [hi]), hout]
  · rw [hout]
    exact hread.parse
  · exact rest_of_readValues hlast hf hvalues

end Message

/-- **Decoded messages are encoded as they were.** If bytes are decoded as a record or as a host
message, encoding the result gives their first bytes back, but for truth values, which become ones
where they are not zero. What was encoded is decoded to the same result. If the last field of a host
message is delimited by the end of the stream, all bytes come back. -/
theorem encode_decoded (d : Descriptor) (typeId : UInt32) (bytes : List UInt8) :
    (∀ r, Record.decode d typeId bytes = .ok r → ∃ out, r.encode = .ok out ∧
      Record.decode d typeId out = .ok r ∧ Resembles d.recordBools bytes out) ∧
    ∀ m, Message.decode d typeId bytes = .ok m → ∃ out, m.encode = .ok out ∧
      Message.decode d typeId out = .ok m ∧ Resembles d.streamBools bytes out ∧
      ∀ f, d.fields.getLast? = some f → f.kind.streamDelimited = true →
        out.length = bytes.length := by
  constructor
  · intro r hr
    obtain ⟨taken, rest, rfl, hencode, hdecode⟩ := Record.encode_of_decode hr
    exact ⟨_, hencode, hdecode, resembles_settled _ taken rest⟩
  · intro m hm
    obtain ⟨taken, rest, rfl, hencode, hdecode, hall⟩ := Message.encode_of_decode hm
    refine ⟨_, hencode, hdecode, resembles_settled _ taken rest, fun f hlast hf => ?_⟩
    rw [hall f hlast (Field.streamedNumber?_eq_none_iff.2 hf), length_settled, List.append_nil]

/-- A message for both sides, a truth value and a text. -/
def Descriptor.flagged : Descriptor :=
  { name := "M"
    interface := "F"
    targets := ⟨true, true⟩
    fields := [⟨"a", "bool", .scalar .bool⟩, ⟨"c", "std::string", .text⟩]
    includes := []
    internal := false
    location := ⟨"m", 2⟩ }

/-- A header of the type seven, the byte 255 for what is true, a counted text and one byte more. -/
def flaggedBytes : List UInt8 := [0, 0, 0, 7, 0, 0, 0, 0, 0, 0, 0, 0, 0, 255, 0, 0, 0, 1, 65, 9]

/-- A record gives the bytes back up to the last one, which it has not read, and a host message gives
back all of them. Both have a one for what is true. -/
theorem encode_decoded_flagged :
    (∃ r out, Record.decode .flagged 7 flaggedBytes = .ok r ∧ r.encode = .ok out ∧
      out.length = 19 ∧ Resembles [13] flaggedBytes out ∧ out[13]? = some 1) ∧
    ∃ m out, Message.decode .flagged 7 flaggedBytes = .ok m ∧ m.encode = .ok out ∧
      out.length = 20 ∧ Resembles [13] flaggedBytes out := by
  obtain ⟨hrecord, hmessage⟩ := encode_decoded .flagged 7 flaggedBytes
  constructor
  · obtain ⟨out, hout, -, hsame⟩ := hrecord _ rfl
    have hlength : out.length = 19 := by
      cases hout
      rfl
    exact ⟨_, out, rfl, hout, hlength, hsame, hsame.byte 13 255 (by omega) rfl⟩
  · obtain ⟨out, hout, -, hsame, hall⟩ := hmessage _ rfl
    exact ⟨_, out, rfl, hout, hall _ rfl rfl, hsame⟩

end WireSchema
