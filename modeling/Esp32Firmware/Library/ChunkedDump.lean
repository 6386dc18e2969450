import Mathlib.Data.List.Basic

/-!
# Dumps in chunks

Entries are written into a buffer of limited size. When the room that is asked for an entry is
not left, the buffer is sent as a chunk, emptied, and the same entry is tried again.
-/

namespace Esp32Firmware.ChunkedDump

/-- What is written, and the room that is asked for before. -/
structure Entry (α : Type*) where
  required : Nat
  text : List α

section

variable {α : Type*} (capacity : Nat)

/-- A buffer cuts off what does not fit. -/
def put (buffer text : List α) : List α := (buffer ++ text).take capacity

variable (close finish : List α → List α) (failure : List (List α))

/-- The chunks with the remaining entries, and whether all of them were written. `close` and
`finish` complete the buffers, the latter the last one. -/
def dump : List (Entry α) → List α → List (List α) × Bool
  | [], buffer => ([finish buffer], true)
  | entry :: rest, buffer =>
    if capacity - buffer.length < entry.required then
      if buffer.isEmpty then (failure, false)
      else if capacity < entry.required then (close buffer :: failure, false)
      else
        let (chunks, isComplete) := dump rest (put capacity [] entry.text)
        (close buffer :: chunks, isComplete)
    else dump rest (put capacity buffer entry.text)

/-- The room asked for is enough for the text and `spare` further elements, and the buffer has
it. -/
def Entry.Fits (spare : Nat) (entry : Entry α) : Prop :=
  entry.text.length + spare ≤ entry.required ∧ entry.required ≤ capacity

/-- No entry has to wait for the next chunk. -/
def FitsOneChunk : List (Entry α) → Nat → Prop
  | [], _ => True
  | entry :: rest, used =>
    used + entry.required ≤ capacity ∧ FitsOneChunk rest (used + entry.text.length)

end

variable {α : Type*} {capacity spare : Nat} {close finish : List α → List α}
  {failure : List (List α)}

variable {buffer last : List α} {entries : List (Entry α)}

theorem put_of_le {text : List α} (h : buffer.length + text.length ≤ capacity) :
    put capacity buffer text = buffer ++ text := by
  rw [put, List.take_of_length_le]
  rwa [List.length_append]

theorem length_flatten_map_append (buffers : List (List α)) (last : List α) :
    (buffers.map (· ++ last)).flatten.length =
      buffers.flatten.length + buffers.length * last.length := by
  induction buffers with
  | nil => rw [List.map_nil, List.length_nil, Nat.zero_mul, Nat.add_zero]
  | cons b buffers ih =>
    rw [List.map_cons, List.flatten_cons, List.length_append, ih, List.length_append,
      List.flatten_cons, List.length_append, List.length_cons, Nat.add_mul, Nat.one_mul]
    omega

/-- The buffers of a dump before they are completed. Each leaves the spare room. -/
theorem dump_eq {entries : List (Entry α)} (hfits : ∀ e ∈ entries, e.Fits capacity spare)
    {buffer : List α} (hbuffer : buffer.length + spare ≤ capacity) :
    ∃ buffers last, dump capacity close finish failure entries buffer =
        (buffers.map close ++ [finish last], true) ∧
      buffers.flatten ++ last = buffer ++ entries.flatMap Entry.text ∧
      (∀ b ∈ last :: buffers, b.length + spare ≤ capacity) ∧
      (buffers = [] ↔ FitsOneChunk capacity entries buffer.length) := by
  induction entries generalizing buffer with
  | nil =>
    refine ⟨[], buffer, by simp [dump], by simp, by simpa using hbuffer, ?_⟩
    simp [FitsOneChunk]
  | cons entry rest ih =>
    obtain ⟨htext, hrequired⟩ := hfits entry List.mem_cons_self
    have hrest : ∀ e ∈ rest, e.Fits capacity spare := fun e he =>
      hfits e (List.mem_cons_of_mem _ he)
    rw [dump]
    by_cases hroom : capacity - buffer.length < entry.required
    · have hne : buffer ≠ [] := by
        rintro rfl
        simp at hroom
        omega
      have hput : put capacity [] entry.text = entry.text :=
        put_of_le (by simp; omega)
      obtain ⟨buffers, last, hdump, hflat, hlength, -⟩ :=
        ih hrest (show entry.text.length + spare ≤ capacity by omega)
      refine ⟨buffer :: buffers, last, ?_, ?_, ?_, ?_⟩
      · simp [hroom, hne, Nat.not_lt.mpr hrequired, hput, hdump]
      · simp [hflat]
      · intro b hb
        rcases List.mem_cons.mp hb with rfl | hb
        · exact hlength b List.mem_cons_self
        · rcases List.mem_cons.mp hb with rfl | hb
          · exact hbuffer
          · exact hlength b (List.mem_cons_of_mem _ hb)
      · simp [FitsOneChunk]
        omega
    · have hput : put capacity buffer entry.text = buffer ++ entry.text :=
        put_of_le (by omega)
      obtain ⟨buffers, last, hdump, hflat, hlength, hone⟩ :=
        ih hrest (show (buffer ++ entry.text).length + spare ≤ capacity by simp; omega)
      refine ⟨buffers, last, ?_, ?_, hlength, ?_⟩
      · simp [hroom, hput, hdump]
      · simp [hflat]
      · rw [hone, FitsOneChunk, List.length_append]
        exact ⟨fun h => ⟨by omega, h⟩, And.right⟩

theorem dump_isComplete (hfits : ∀ e ∈ entries, e.Fits capacity spare)
    (hbuffer : buffer.length + spare ≤ capacity) :
    (dump capacity close finish failure entries buffer).2 = true := by
  obtain ⟨_, _, hdump, -⟩ :=
    @dump_eq α capacity spare close finish failure entries hfits buffer hbuffer
  rw [hdump]

/-- Every entry is written once, whole and in its order. -/
theorem flatten_dump (hclose : ∀ b : List α, b.length + last.length ≤ capacity → close b = b)
    (hfinish : ∀ b : List α, b.length + last.length ≤ capacity → finish b = b ++ last)
    (hfits : ∀ e ∈ entries, e.Fits capacity last.length)
    (hbuffer : buffer.length + last.length ≤ capacity) :
    (dump capacity close finish failure entries buffer).1.flatten =
      buffer ++ entries.flatMap Entry.text ++ last := by
  obtain ⟨buffers, final, hdump, hflat, hlength, -⟩ := dump_eq hfits hbuffer
  have hmap : buffers.map close = buffers.map id :=
    List.map_congr_left fun b hb => hclose b (hlength b (List.mem_cons_of_mem _ hb))
  rw [hdump, ← hflat, hmap, List.map_id]
  simp [hfinish final (hlength final List.mem_cons_self)]

/-- Where every chunk is completed in the same way, only one chunk gives what is meant. -/
theorem flatten_dump_iff
    (hclose : ∀ b : List α, b.length + last.length ≤ capacity → close b = b ++ last)
    (hlast : last ≠ []) (hfits : ∀ e ∈ entries, e.Fits capacity last.length)
    (hbuffer : buffer.length + last.length ≤ capacity) :
    (dump capacity close close failure entries buffer).1.flatten =
        buffer ++ entries.flatMap Entry.text ++ last ↔
      FitsOneChunk capacity entries buffer.length := by
  obtain ⟨buffers, final, hdump, hflat, hlength, hone⟩ :=
    @dump_eq α capacity last.length close close failure entries hfits buffer hbuffer
  have hlast' : 0 < last.length := List.length_pos_iff.mpr hlast
  have hmap : buffers.map close = buffers.map (· ++ last) :=
    List.map_congr_left fun b hb => hclose b (hlength b (List.mem_cons_of_mem _ hb))
  rw [hdump, ← hflat, ← hone, hmap, List.flatten_append, List.flatten_singleton,
    hclose final (hlength final List.mem_cons_self)]
  constructor
  · intro h
    have hlen := congrArg List.length h
    simp only [List.length_append, length_flatten_map_append] at hlen
    have hzero : buffers.length * last.length = 0 := by omega
    rcases Nat.mul_eq_zero.mp hzero with hnil | hnil
    · exact List.length_eq_zero_iff.mp hnil
    · omega
  · rintro rfl
    rfl

end Esp32Firmware.ChunkedDump
