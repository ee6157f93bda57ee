/-!
# Byte buffers

A block of memory of a fixed size that starts zeroed. Only the runs of bytes that were put into it
are kept, so that a large block costs nothing until it is used. `byteAt` is what lies at a position,
and the statements at the end say how a write changes a part of the block: it replaces the part that
it covers, and no byte before or behind it.
-/

namespace WireSchema.Wire

/-- Bytes that lie one behind the other from `offset` on. -/
structure Run where
  offset : Nat
  bytes : List UInt8
deriving Repr, DecidableEq

namespace Run

/-- The position behind the last byte. -/
def stop (r : Run) : Nat := r.offset + r.bytes.length

/-- Whether a run lies in another. -/
def within (r s : Run) : Bool := s.offset ≤ r.offset && r.stop ≤ s.stop

/-- The bytes `window`, which lie from `start` on, with a run laid over them. -/
def layOver (r : Run) (start : Nat) (window : List UInt8) : List UInt8 :=
  let skipped := r.offset - start
  let fitting := (r.bytes.drop (start - r.offset)).take (window.length - skipped)
  window.take skipped ++ fitting ++ window.drop (skipped + fitting.length)

@[simp] theorem length_layOver (r : Run) (start : Nat) (window : List UInt8) :
    (r.layOver start window).length = window.length := by
  grind [layOver]

theorem getElem?_layOver (r : Run) (start : Nat) (window : List UInt8) (i : Nat) :
    (r.layOver start window)[i]? =
      if i < window.length ∧ r.offset ≤ start + i ∧ start + i < r.stop then
        r.bytes[start + i - r.offset]?
      else window[i]? := by
  by_cases hi : i < window.length
  · unfold layOver stop
    by_cases hbefore : i < r.offset - start
    · have htake : i < (window.take (r.offset - start)).length := by
        rw [List.length_take]
        omega
      rw [if_neg (by omega), List.append_assoc, List.getElem?_append_left htake,
        List.getElem?_take_of_lt hbefore]
    · have htake : (window.take (r.offset - start)).length = r.offset - start := by
        rw [List.length_take]
        omega
      by_cases hinside : start + i < r.offset + r.bytes.length
      · have hfitting : i - (r.offset - start) <
            ((r.bytes.drop (start - r.offset)).take (window.length - (r.offset - start))).length := by
          rw [List.length_take, List.length_drop]
          omega
        rw [if_pos (by omega), List.append_assoc, List.getElem?_append_right (by omega), htake,
          List.getElem?_append_left hfitting, List.getElem?_take_of_lt (by omega),
          List.getElem?_drop]
        congr 1
        omega
      · -- Behind the run, all of it that was not cut off in front fits.
        have hfitting : ((r.bytes.drop (start - r.offset)).take
            (window.length - (r.offset - start))).length =
              r.bytes.length - (start - r.offset) := by
          rw [List.length_take, List.length_drop]
          omega
        rw [if_neg (by omega),
          List.getElem?_append_right (by rw [List.length_append, htake, hfitting]; omega),
          List.length_append, htake, hfitting, List.getElem?_drop]
        congr 1
        omega
  · rw [if_neg (by omega), List.getElem?_eq_none (by rw [length_layOver]; omega),
      List.getElem?_eq_none (by omega)]

end Run

/-- A zeroed block of `size` bytes with runs in it. Of two runs that overlap, the first counts. -/
structure Buffer where
  size : Nat
  runs : List Run
deriving Repr, DecidableEq

namespace Buffer

/-- A block of zeros. -/
def zeroed (size : Nat) : Buffer := ⟨size, []⟩

/-- A block that holds exactly `bytes`. -/
def ofBytes (bytes : List UInt8) : Buffer := ⟨bytes.length, [⟨0, bytes⟩]⟩

def slice (b : Buffer) (start n : Nat) : List UInt8 :=
  b.runs.foldr (fun r window => r.layOver start window) (List.replicate n 0)

/-- The block after `bytes` were put at `offset`. Runs that they cover are forgotten. -/
def write (b : Buffer) (offset : Nat) (bytes : List UInt8) : Buffer :=
  let r : Run := ⟨offset, bytes⟩
  { b with runs := r :: b.runs.filter (!·.within r) }

@[simp] theorem size_write (b : Buffer) (offset : Nat) (bytes : List UInt8) :
    (b.write offset bytes).size = b.size := rfl

/-! ## Single bytes -/

/-- The byte at a position in runs, of which the first counts. -/
def byteIn : List Run → Nat → UInt8
  | [], _ => 0
  | r :: rest, i =>
    if r.offset ≤ i ∧ i < r.stop then r.bytes[i - r.offset]?.getD 0 else byteIn rest i

/-- The byte at a position. -/
def byteAt (b : Buffer) (i : Nat) : UInt8 := byteIn b.runs i

theorem byteIn_filter {r : Run} {i : Nat} (h : ¬(r.offset ≤ i ∧ i < r.stop)) (runs : List Run) :
    byteIn (runs.filter (!·.within r)) i = byteIn runs i := by
  induction runs with
  | nil => rfl
  | cons s rest ih => grind [byteIn, Run.within]

theorem byteAt_write (b : Buffer) (offset : Nat) (bytes : List UInt8) (i : Nat) :
    (b.write offset bytes).byteAt i =
      if offset ≤ i ∧ i < offset + bytes.length then bytes[i - offset]?.getD 0
      else b.byteAt i := by
  by_cases h : offset ≤ i ∧ i < offset + bytes.length
  · simp [write, byteAt, byteIn, Run.stop, h]
  · have outside : ¬((⟨offset, bytes⟩ : Run).offset ≤ i ∧ i < (⟨offset, bytes⟩ : Run).stop) := h
    rw [byteAt, write, byteIn, if_neg outside, byteIn_filter outside, if_neg h, byteAt]

/-! ## Parts -/

@[simp] theorem length_slice (b : Buffer) (start n : Nat) : (b.slice start n).length = n := by
  rw [slice]
  induction b.runs with
  | nil => simp
  | cons r rest ih => simp [ih]

theorem getElem?_slice (b : Buffer) (start n i : Nat) :
    (b.slice start n)[i]? = if i < n then some (b.byteAt (start + i)) else none := by
  have run_bytes (runs : List Run) :
      (runs.foldr (fun r window => r.layOver start window) (List.replicate n 0))[i]? =
        if i < n then some (byteIn runs (start + i)) else none := by
    induction runs with
    | nil => by_cases h : i < n <;> simp [byteIn, h]
    | cons r rest ih =>
      have same : (rest.foldr (fun r window => r.layOver start window)
          (List.replicate n 0)).length = n := length_slice ⟨0, rest⟩ start n
      rw [List.foldr_cons, Run.getElem?_layOver, same, ih, byteIn]
      grind [Run.stop]
  exact run_bytes b.runs

theorem slice_congr {a b : Buffer} {start n : Nat}
    (h : ∀ i, start ≤ i → i < start + n → a.byteAt i = b.byteAt i) :
    a.slice start n = b.slice start n := by
  apply List.ext_getElem?
  intro i
  rw [getElem?_slice, getElem?_slice]
  by_cases lt : i < n
  · rw [if_pos lt, if_pos lt, h (start + i) (by omega) (by omega)]
  · rw [if_neg lt, if_neg lt]

theorem slice_write (b : Buffer) (offset : Nat) (bytes : List UInt8) :
    (b.write offset bytes).slice offset bytes.length = bytes := by
  apply List.ext_getElem?
  intro i
  rw [getElem?_slice]
  by_cases lt : i < bytes.length
  · have inside : offset ≤ offset + i ∧ offset + i < offset + bytes.length := by omega
    rw [if_pos lt, byteAt_write, if_pos inside, Nat.add_sub_cancel_left]
    simp [lt]
  · rw [if_neg lt, List.getElem?_eq_none (by omega)]

theorem slice_write_of_le (b : Buffer) {offset start n : Nat} (bytes : List UInt8)
    (h : start + n ≤ offset) : (b.write offset bytes).slice start n = b.slice start n := by
  apply slice_congr
  intro i _ _
  rw [byteAt_write, if_neg (by omega)]

theorem slice_write_of_ge (b : Buffer) {offset start n : Nat} (bytes : List UInt8)
    (h : offset + bytes.length ≤ start) :
    (b.write offset bytes).slice start n = b.slice start n := by
  apply slice_congr
  intro i _ _
  rw [byteAt_write, if_neg (by omega)]

end Buffer

end WireSchema.Wire
