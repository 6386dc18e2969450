import Esp32Firmware.Library.Run
import Esp32Firmware.Tools.HimemBuffer
import Esp32Firmware.Tools.PackedRingbuffer

/-!
# Whole lines in the event log

The event log drops its oldest lines to make room for a new one. Without PSRAM it is kept in a
packed ring buffer, with PSRAM in a bank switched buffer.
-/

namespace Esp32Firmware.EventLog

open BoundedQueue Tools

abbrev Character := BitVec 8

def newline : Character := 10

section

variable {capacity : ℕ} {text line : List Character} {lines : List (List Character)}

/-- A line ends in a newline and contains no other one. -/
def IsLine (line : List Character) : Prop := ∃ body, newline ∉ body ∧ line = body ++ [newline]

/-- The text consists of the last lines, at least of one. -/
def WholeLines (lines : List (List Character)) (text : List Character) : Prop :=
  ∃ dropped kept, lines = dropped ++ kept ∧ kept ≠ [] ∧ text = kept.flatten

/-- What a log of bounded length does with a new line. -/
def append (capacity : ℕ) (text line : List Character) : List Character :=
  if text.length + line.length ≤ capacity then text ++ line
  else popUntil newline (pushN capacity text line)

theorem append_nil (h : line.length ≤ capacity) : append capacity [] line = line := by
  rw [append, if_pos (by rwa [List.length_nil, Nat.zero_add]), List.nil_append]

theorem run_twice {σ α : Type*} (step : σ → α → σ) (s : σ) (a : α) :
    run step s [a, a] = step (step s a) a := rfl

theorem run_append_twice (h : line.length ≤ capacity) :
    run (append capacity) [] [line, line] = append capacity line line := by
  rw [run_twice, append_nil h]

/-- Cutting into lines and dropping what is left of the cut line leaves whole lines. -/
theorem popUntil_drop_flatten (h : ∀ line ∈ lines, IsLine line) (rest : List Character) {n : ℕ}
    (hn : n < lines.flatten.length) :
    ∃ k, popUntil newline ((lines.flatten ++ rest).drop n) = (lines.drop k).flatten ++ rest := by
  induction lines generalizing n with
  | nil => exact absurd hn (Nat.not_lt_zero _)
  | cons line lines ih =>
    obtain ⟨body, hbody, rfl⟩ := h line List.mem_cons_self
    rw [List.flatten_cons, List.append_assoc]
    rcases Nat.lt_or_ge n (body ++ [newline]).length with hlt | hge
    · refine ⟨1, ?_⟩
      have hle : n ≤ body.length := by
        rw [List.length_append, List.length_singleton] at hlt
        omega
      rw [List.drop_append_of_le_length hlt.le, List.drop_append_of_le_length hle,
        List.append_assoc, List.singleton_append,
        popUntil_append_cons (fun hmem => hbody (List.mem_of_mem_drop hmem)), List.drop_succ_cons,
        List.drop_zero]
    · rw [List.flatten_cons, List.length_append] at hn
      obtain ⟨k, hk⟩ := ih (fun l hl => h l (List.mem_cons_of_mem _ hl))
        (n := n - (body ++ [newline]).length) (by omega)
      refine ⟨k + 1, ?_⟩
      rw [List.drop_succ_cons, ← hk, List.drop_append, List.drop_eq_nil_of_le hge, List.nil_append]

/-- A new line that is shorter than the log is kept with whole lines in front of it. -/
theorem append_flatten {kept : List (List Character)} (h : ∀ line ∈ kept, IsLine line)
    (hline : line.length < capacity) :
    ∃ k, append capacity kept.flatten line = (kept.drop k ++ [line]).flatten := by
  rw [append]
  split
  · exact ⟨0, by rw [List.drop_zero, List.flatten_append, List.flatten_singleton]⟩
  · rename_i hfits
    rw [pushN_eq_drop]
    obtain ⟨k, hk⟩ := popUntil_drop_flatten h line
      (show kept.flatten.length + line.length - capacity < kept.flatten.length by omega)
    exact ⟨k, by rw [hk, List.flatten_append, List.flatten_singleton]⟩

/-- Every log of lines that are shorter than it consists of the last lines. -/
theorem wholeLines_run (hlines : ∀ line ∈ lines, IsLine line ∧ line.length < capacity)
    (hne : lines ≠ []) : WholeLines lines (run (append capacity) [] lines) := by
  have hrun : ∃ dropped kept, lines = dropped ++ kept ∧ (lines ≠ [] → kept ≠ []) ∧
      run (append capacity) [] lines = kept.flatten := by
    clear hne
    induction lines using List.reverseRecOn with
    | nil => exact ⟨[], [], rfl, id, rfl⟩
    | append_singleton lines line ih =>
      obtain ⟨dropped, kept, hsplit, -, htext⟩ :=
        ih (fun l hl => hlines l (List.mem_append_left _ hl))
      have hline := hlines line (List.mem_append_right _ List.mem_cons_self)
      have hkept : ∀ l ∈ kept, IsLine l := fun l hl =>
        (hlines l (List.mem_append_left _ (hsplit ▸ List.mem_append_right _ hl))).1
      obtain ⟨k, hk⟩ := append_flatten hkept hline.2
      have hstep : run (append capacity) [] (lines ++ [line]) =
          (kept.drop k ++ [line]).flatten := by
        rw [run_append, htext]
        exact hk
      refine ⟨dropped ++ kept.take k, kept.drop k ++ [line], ?_, fun _ => ?_, hstep⟩
      · rw [hsplit, List.append_assoc, List.append_assoc, ← List.append_assoc (kept.take k),
          List.take_append_drop]
      · exact List.append_ne_nil_of_right_ne_nil _ (List.cons_ne_nil _ _)
  obtain ⟨dropped, kept, hsplit, hkept, htext⟩ := hrun
  exact ⟨dropped, kept, hsplit, hkept hne, htext⟩

end

section

variable {size : ℕ} {hsize : 0 < size}

/-- The event buffer without PSRAM: characters, which are not signed, in words of 32 bits. -/
abbrev eventBuf (size : ℕ) (hsize : 0 < size) : PackedRingbuffer :=
  ⟨1, false, 4, size, rfl, rfl, rfl, Nat.one_pos, Nat.zero_lt_succ _, hsize⟩

variable (s : PackedRingbuffer.State (eventBuf size hsize))

theorem used_pop (h : 0 < s.used) :
    s.pop.2.2.used < s.used := by
  have hlength := congrArg List.length (s.contents_pop (Nat.ne_of_gt h))
  rw [List.length_cons, PackedRingbuffer.State.length_contents,
    PackedRingbuffer.State.length_contents] at hlength
  omega

/-- Pops until the popped character is a newline or there are none left. -/
def popLine (s : PackedRingbuffer.State (eventBuf size hsize)) (c : Character) :
    PackedRingbuffer.State (eventBuf size hsize) :=
  if _ : s.used > 0 ∧ c ≠ newline then popLine s.pop.2.2 s.pop.2.1 else s
termination_by s.used
decreasing_by
  rename_i h
  exact used_pop s h.1

def printPlain (s : PackedRingbuffer.State (eventBuf size hsize)) (buf : List Character) :
    PackedRingbuffer.State (eventBuf size hsize) :=
  let fits := buf.length ≤ s.free
  let s := buf.foldl .push s
  if ¬ fits then popLine s.pop.2.2 s.pop.2.1 else s

theorem contents_popLine (c : Character) :
    (popLine s c).contents = if c = newline then s.contents else popUntil newline s.contents := by
  induction s, c using popLine.induct with
  | case1 s c h ih =>
    have hpop := s.contents_pop (Nat.ne_of_gt h.1)
    have hvalue : s.pop.2.1 = (eventBuf size hsize).readAligned s.buffer s.start := by
      rw [PackedRingbuffer.State.pop, if_neg (Nat.ne_of_gt h.1)]
    rw [popLine, dif_pos h, if_neg h.2, ih, hpop, hvalue]
    rfl
  | case2 s c h =>
    rw [popLine, dif_neg h]
    split
    · rfl
    · rename_i hc
      have hused : s.used = 0 := by
        by_contra hne
        exact h ⟨Nat.pos_of_ne_zero hne, hc⟩
      rw [PackedRingbuffer.State.contents_eq_nil hused, popUntil]

/-- Characters have no sign that could be copied. -/
theorem contents_push (c : Character) :
    (s.push c).contents = pushN (size - 1) s.contents [c] :=
  (s.contents_push_iff c).mpr fun h => Bool.noConfusion h

theorem contents_foldl_push (buf : List Character)
    (s : PackedRingbuffer.State (eventBuf size hsize)) :
    (buf.foldl .push s).contents = pushN (size - 1) s.contents buf := by
  have hlength : s.contents.length ≤ size - 1 := by
    have hused := used_lt s.start.isLt s.stop.isLt
    rw [PackedRingbuffer.State.length_contents, PackedRingbuffer.State.used_eq]
    exact Nat.le_sub_one_of_lt hused
  rw [← foldl_pushN buf hlength]
  exact (List.foldl_hom PackedRingbuffer.State.contents (fun s c => (contents_push s c).symm)).symm

theorem contents_printPlain (buf : List Character) :
    (printPlain s buf).contents = append (size - 1) s.contents buf := by
  have hused : s.used < size := used_lt s.start.isLt s.stop.isLt
  have hfree : s.free = size - 1 - s.used := rfl
  have hfits : buf.length ≤ s.free ↔ s.contents.length + buf.length ≤ size - 1 := by
    rw [PackedRingbuffer.State.length_contents, hfree]
    omega
  rw [printPlain, append]
  by_cases h : buf.length ≤ s.free
  · rw [if_neg (not_not.mpr h), if_pos (hfits.mp h), contents_foldl_push, pushN_of_le (hfits.mp h)]
  · rw [if_pos h, if_neg (mt hfits.mpr h), ← contents_foldl_push]
    generalize buf.foldl PackedRingbuffer.State.push s = pushed
    rcases Nat.eq_zero_or_pos pushed.used with hzero | hsome
    · have hpop : pushed.pop = (false, 0, pushed) := if_pos hzero
      rw [hpop, contents_popLine, PackedRingbuffer.State.contents_eq_nil hzero, popUntil, ite_self]
    · have hpop := pushed.contents_pop (Nat.ne_of_gt hsome)
      have hvalue : pushed.pop.2.1 =
          (eventBuf size hsize).readAligned pushed.buffer pushed.start := by
        rw [PackedRingbuffer.State.pop, if_neg (Nat.ne_of_gt hsome)]
      rw [contents_popLine, hpop, hvalue]
      rfl

theorem run_printPlain (memory : ℕ → (eventBuf size hsize).Word) (lines : List (List Character)) :
    (run printPlain (.setup memory : PackedRingbuffer.State (eventBuf size hsize))
      lines).contents = run (append (size - 1)) [] lines := by
  have hempty : (.setup memory : PackedRingbuffer.State (eventBuf size hsize)).contents = [] :=
    contents_self
  rw [← hempty]
  exact (List.foldl_hom PackedRingbuffer.State.contents
    (fun s line => (contents_printPlain s line).symm)).symm

end

namespace Psram

variable {b : HimemBuffer}

def printPlain (s : HimemBuffer.State b) (buf : List Character) : HimemBuffer.State b :=
  let fits := buf.length ≤ s.free
  let s := s.pushN buf
  if ¬ fits then s.popUntil newline else s

/-- The same for one of the trace buffers. -/
def tracePlain (s : HimemBuffer.State b) (buf : List Character) : HimemBuffer.State b :=
  let dropLine := s.free < buf.length
  let s := s.pushN buf
  if dropLine then s.popUntil newline else s

theorem tracePlain_eq (s : HimemBuffer.State b) (buf : List Character) :
    tracePlain s buf = printPlain s buf := by
  rw [tracePlain, printPlain]
  simp only [Nat.not_le]

/-- The line fits, or what remains of the log starts at the start of a block or has its first
newline in the block it starts in. -/
def NewlineInBlock (s : HimemBuffer.State b) (line : List Character) : Prop :=
  line.length ≤ s.free ∨
    (s.stop + line.length + 1) % b.bufSize % b.blockSize = 0 ∨
    (s.stop + line.length + 1) % b.bufSize % b.blockSize +
      (pushN (b.bufSize - 1) s.contents line).idxOf newline < b.blockSize

instance (s : HimemBuffer.State b) (line : List Character) : Decidable (NewlineInBlock s line) :=
  inferInstanceAs (Decidable (_ ∨ _))

theorem contents_printPlain_iff {s : HimemBuffer.State b} {line : List Character}
    (hline : IsLine line) (hlength : line.length < b.bufSize - 1) :
    (printPlain s line).contents = append (b.bufSize - 1) s.contents line ↔
      NewlineInBlock s line := by
  have hused : s.used < b.bufSize := by
    rw [HimemBuffer.State.used_eq]
    exact used_lt s.start.isLt s.stop.isLt
  have hfree : s.free = b.bufSize - 1 - s.used := rfl
  have hfits : line.length ≤ s.free ↔ s.contents.length + line.length ≤ b.bufSize - 1 := by
    rw [HimemBuffer.State.length_contents, hfree]
    omega
  have hpush := s.contents_pushN hlength.le
  rw [printPlain, append, NewlineInBlock]
  by_cases h : line.length ≤ s.free
  · rw [if_neg (not_not.mpr h), if_pos (hfits.mp h), hpush]
    exact iff_of_true (pushN_of_le (hfits.mp h)) (.inl h)
  · have hmem : newline ∈ (s.pushN line).contents := by
      obtain ⟨body, -, rfl⟩ := hline
      have hdrop : s.contents.length + (body ++ [newline]).length - (b.bufSize - 1) ≤
          (s.contents ++ body).length := by
        rw [List.length_append, List.length_singleton] at hlength ⊢
        rw [List.length_append]
        omega
      rw [hpush, HimemBuffer.State.size, pushN_eq_drop, ← List.append_assoc,
        List.drop_append_of_le_length hdrop]
      exact List.mem_append_right _ List.mem_cons_self
    have hstart := HimemBuffer.State.pushN_start hlength.le (Nat.lt_of_not_le h)
    rw [if_pos h, if_neg (mt hfits.mpr h), or_iff_right h, ← hstart]
    have hiff := HimemBuffer.State.contents_popUntil_iff hmem
    rw [hpush] at hiff
    exact hiff

/-- The first line fits into an empty log. -/
theorem printPlain_setup (memory : ℕ → Character) {line : List Character} (hline : IsLine line)
    (hlength : line.length < b.bufSize - 1) :
    (printPlain (.setup memory : HimemBuffer.State b) line).contents = line ∧
      ((printPlain (.setup memory : HimemBuffer.State b) line).stop : ℕ) = line.length := by
  have hempty : (.setup memory : HimemBuffer.State b).contents = [] := contents_self
  have hused : (.setup memory : HimemBuffer.State b).used = 0 := by
    rw [← HimemBuffer.State.length_contents, hempty, List.length_nil]
  have hfits : line.length ≤ (.setup memory : HimemBuffer.State b).free := by
    rw [HimemBuffer.State.free, hused]
    exact hlength.le
  constructor
  · rw [(contents_printPlain_iff hline hlength).mpr (.inl hfits), hempty, append_nil hlength.le]
  · rw [printPlain, if_neg (not_not.mpr hfits), HimemBuffer.State.pushN_stop _ hlength.le]
    exact (congrArg (· % b.bufSize) (Nat.zero_add _)).trans (Nat.mod_eq_of_lt (by omega))

end Psram

/-- Without PSRAM the event log always consists of the last lines. With PSRAM it does and it is the
same text exactly if no line is dropped whose newline is in another block than its first
remaining character. The trace buffers are written as the event log with PSRAM. -/
theorem event_log_whole_lines (b : HimemBuffer) :
    (∀ (size : ℕ) (hsize : 0 < size) (memory : ℕ → (eventBuf size hsize).Word)
      (lines : List (List Character)), (∀ line ∈ lines, IsLine line ∧ line.length < size - 1) →
        lines ≠ [] → WholeLines lines (run printPlain (.setup memory) lines).contents) ∧
      (∀ (memory : ℕ → (eventBuf b.bufSize b.bufSize_pos).Word)
        (memory' : ℕ → Character) (lines : List (List Character)),
        (∀ line ∈ lines, IsLine line ∧ line.length < b.bufSize - 1) →
          ((∀ written, written <+: lines → written ≠ [] →
              WholeLines written (run Psram.printPlain (.setup memory' : HimemBuffer.State b)
                written).contents ∧
              (run Psram.printPlain (.setup memory' : HimemBuffer.State b) written).contents =
                (run printPlain (.setup memory) written).contents) ↔
            Meets Psram.printPlain Psram.NewlineInBlock (.setup memory' : HimemBuffer.State b)
              lines)) ∧
      ∀ (s : HimemBuffer.State b) (line : List Character),
        Psram.tracePlain s line = Psram.printPlain s line := by
  refine ⟨fun size hsize memory lines hlines hne => ?_, fun memory memory' lines hlines => ?_,
    Psram.tracePlain_eq⟩
  · rw [run_printPlain]
    exact wholeLines_run hlines hne
  · have hempty : (.setup memory' : HimemBuffer.State b).contents = [] := contents_self
    rw [← meets_iff_simulates fun s line hline =>
      Psram.contents_printPlain_iff (hlines line hline).1 (hlines line hline).2]
    simp only [hempty, run_printPlain]
    constructor
    · intro h written hwritten
      by_cases hne : written = []
      · rw [hne]
        exact hempty
      · exact (h written hwritten hne).2
    · intro h written hwritten hne
      rw [h written hwritten]
      exact ⟨wholeLines_run (fun line hline => hlines line (hwritten.subset hline)) hne, rfl⟩

/-- Two blocks of 32 KiB. -/
def twoBlocks : HimemBuffer := ⟨15, 16, Nat.lt_succ_self 15⟩

theorem first_line_kept :
    WholeLines [[65, 66, newline], [67, newline]]
        (run printPlain (.setup fun _ => 0 : PackedRingbuffer.State (eventBuf 10000 (by decide)))
          [[65, 66, newline], [67, newline]]).contents ∧
      WholeLines [[65, newline]]
        (run Psram.printPlain (.setup fun _ => 0 : HimemBuffer.State twoBlocks)
          [[65, newline]]).contents := by
  have hlines : ∀ line ∈ [[65, 66, newline], [67, newline]],
      IsLine line ∧ line.length < 10000 - 1 := by
    intro line hline
    rcases List.mem_pair.mp hline with rfl | rfl
    · exact ⟨⟨[65, 66], by decide, rfl⟩, by decide⟩
    · exact ⟨⟨[67], by decide, rfl⟩, by decide⟩
  have hline : ∀ line ∈ [[65, newline]], IsLine line ∧ line.length < twoBlocks.bufSize - 1 := by
    intro line hline
    rw [List.mem_singleton.mp hline]
    exact ⟨⟨[65], by decide, rfl⟩, by decide⟩
  exact ⟨(event_log_whole_lines twoBlocks).1 10000 _ _ _ hlines (by decide),
    (((event_log_whole_lines twoBlocks).2.1 (fun _ => 0) (fun _ => 0) _ hline).mpr
      ⟨.inl (by decide), trivial⟩ _ (List.prefix_refl _) (by decide)).1⟩

/-- A line of 40000 characters. -/
def longLine : List Character := List.replicate 39999 97 ++ [newline]

theorem length_longLine : longLine.length = 40000 := by
  rw [longLine, List.length_append, List.length_replicate, List.length_singleton]

theorem isLine_longLine : IsLine longLine :=
  ⟨_, fun h => absurd (List.eq_of_mem_replicate h) (by decide), rfl⟩

/-- What remains of the first of two long lines starts in the first block, and its newline is in the
second one. -/
theorem newline_behind_block {s : HimemBuffer.State twoBlocks} (hcontents : s.contents = longLine)
    (hstop : (s.stop : ℕ) = 40000) : ¬ Psram.NewlineInBlock s longLine := by
  have hsize : twoBlocks.bufSize = 65536 := rfl
  have hblock : twoBlocks.blockSize = 32768 := rfl
  have hused : s.used = 40000 := by
    rw [← HimemBuffer.State.length_contents, hcontents, length_longLine]
  have hfree : s.free = 25535 := by
    rw [HimemBuffer.State.free, hused]
    rfl
  have hidx : (pushN (twoBlocks.bufSize - 1) s.contents longLine).idxOf newline = 25534 := by
    rw [pushN_eq_drop, hcontents, length_longLine, hsize, longLine, List.append_assoc,
      List.drop_append_of_le_length (by rw [List.length_replicate]; omega), List.drop_replicate,
      List.idxOf_append_of_notMem (fun h => absurd (List.eq_of_mem_replicate h) (by decide)),
      List.length_replicate, List.singleton_append, List.idxOf_cons_self]
  rw [Psram.NewlineInBlock, hidx, hfree, hstop, length_longLine, hsize, hblock]
  omega

/-- Two long lines: with PSRAM a part of the second line is dropped with the first one. -/
theorem second_line_cut :
    ¬ (WholeLines [longLine, longLine]
          (run Psram.printPlain (.setup fun _ => 0 : HimemBuffer.State twoBlocks)
            [longLine, longLine]).contents ∧
        (run Psram.printPlain (.setup fun _ => 0 : HimemBuffer.State twoBlocks)
            [longLine, longLine]).contents =
          (run printPlain (.setup fun _ => 0 :
            PackedRingbuffer.State (eventBuf twoBlocks.bufSize twoBlocks.bufSize_pos))
            [longLine, longLine]).contents) := by
  rintro ⟨-, heq⟩
  have hshort : longLine.length < twoBlocks.bufSize - 1 := by
    rw [length_longLine, show twoBlocks.bufSize = 65536 from rfl]
    omega
  obtain ⟨hcontents, hstop⟩ := Psram.printPlain_setup (b := twoBlocks) (fun _ => 0)
    isLine_longLine hshort
  rw [length_longLine] at hstop
  refine newline_behind_block hcontents hstop
    ((Psram.contents_printPlain_iff isLine_longLine hshort).mp ?_)
  rw [run_printPlain, run_append_twice hshort.le, run_twice] at heq
  rw [hcontents]
  exact heq

end Esp32Firmware.EventLog
