import Anarch.TextConsoleSplit

/-! The buffer of the console is a window onto an infinite page of 80-column rows. -/
namespace Anarch.TextConsole

/-- A page without a bottom row, and its cursor. -/
structure Page where
  row : ℕ := 0
  col : ℕ := 0
  cells : ℕ → ℕ → BitVec 8 := fun _ _ => 0

namespace Page

def newline (p : Page) : Page := { p with row := p.row + 1, col := 0 }

/-- A character goes to the cell under the cursor, or to the next row if this one is full. -/
def write (theChar : BitVec 8) (p : Page) : Page :=
  let p := if p.col = width then p.newline else p
  { p with
    cells := Function.update p.cells p.row (Function.update (p.cells p.row) p.col theChar)
    col := p.col + 1 }

def put (theChar : BitVec 8) (p : Page) : Page :=
  if theChar = 0x0a then p.newline
  else if theChar = 0x0d then { p with col := 0 }
  else p.write theChar

/-- The characters of a string up to its first NUL. -/
def render (string : List (BitVec 8)) (p : Page) : Page :=
  (string.takeWhile (· ≠ 0)).foldl (fun p theChar => p.put theChar) p

end Page

/-- A call of `PrintString` and the color that it finds. -/
structure Call where
  color : BitVec 8
  string : List (BitVec 8)

def Call.run (call : Call) (c : TextConsole) : TextConsole :=
  printString call.string { c with color := call.color }

/-- A color, and no backspace before the NUL of the string. -/
structure Call.Plain (call : Call) : Prop where
  color : call.color ≠ 0
  string : 0x08 ∉ call.string.takeWhile (· ≠ 0)

/-- The characters of the buffer are the rows of the page from `top` on. -/
def Window (top : ℕ) (buffer : ℕ → BitVec 16) (cells : ℕ → ℕ → BitVec 8) : Prop :=
  ∀ r < height, ∀ k < width, charByte (buffer (width * r + k)) = cells (top + r) k

/-- The console shows the page from row `top` on. -/
structure Shows (top : ℕ) (c : TextConsole) (p : Page) : Prop where
  x : c.x = p.col
  y : c.y = (p.row : ℤ) - top
  y_nonneg : 0 ≤ c.y
  y_le : c.y ≤ 24
  window : Window top c.buffer p.cells

/-- The simulation: the console is ready for the next character and the rows of the page
below the cursor are empty. -/
structure Simulates (top : ℕ) (c : TextConsole) (p : Page) : Prop extends Ready c, Dressed c where
  x : c.x = p.col
  y : c.y = (p.row : ℤ) - top
  window : Window top c.buffer p.cells
  below : ∀ r, p.row < r → ∀ k, p.cells r k = 0

section
variable {top : ℕ} {c : TextConsole} {p : Page}

lemma Simulates.shows (h : Simulates top c p) : Shows top c p :=
  ⟨h.x, h.y, h.y_nonneg, Int.le_of_lt_add_one h.y_lt, h.window⟩

lemma Ready.getBufferIndex (h : c.Ready) {row col : ℕ} (hx : c.x = col)
    (hy : c.y = row) : c.getBufferIndex.toNat = width * row + col := by
  have hrow := h.y_lt
  have hcol := h.x_le
  rw [hy] at hrow
  rw [hx] at hcol
  have hposition : c.y * width + c.x = ((width * row + col : ℕ) : ℤ) := by
    rw [hx, hy]
    push_cast
    ring
  simp only [width, height] at hrow hcol
  rw [TextConsole.getBufferIndex, if_neg (by simp [h.clamps]), position, hposition,
    BitVec.ofInt_natCast, BitVec.toNat_ofNat, Nat.mod_eq_of_lt (by simp only [width]; omega)]

lemma Window.scrollUp {cells : ℕ → ℕ → BitVec 8} (h : Window top c.buffer cells)
    (hempty : ∀ k < width, cells (top + height) k = 0) :
    Window (top + 1) c.scrollUp.buffer cells := by
  intro r hr k hk
  have hindex : width * r + k < width * height := by
    simp only [width, height] at *
    omega
  rw [scrollUp_buffer c hindex]
  split_ifs with hlast
  · have hr' : r + 1 < height := by
      simp only [width, height] at *
      omega
    have hnext : width * r + k + width = width * (r + 1) + k := by ring
    rw [hnext, h (r + 1) hr' k hk]
    congr 1
    omega
  · obtain rfl : r = height - 1 := by
      simp only [width, height] at *
      omega
    exact (hempty k hk).symm

lemma Window.setCurrentCharacter {cells : ℕ → ℕ → BitVec 8} (h : Window top c.buffer cells)
    (hc : c.Ready) {row col : ℕ} (hx : c.x = col) (hy : c.y = row) (hcol : col < width)
    (v : BitVec 16) :
    Window top (c.setCurrentCharacter v).buffer
      (Function.update cells (top + row) (Function.update (cells (top + row)) col (charByte v))) := by
  intro r hr k hk
  simp only [TextConsole.setCurrentCharacter, hc.getBufferIndex hx hy, Function.update_apply]
  by_cases hrow : r = row
  · subst hrow
    rw [if_pos rfl, Function.update_apply]
    by_cases hk' : k = col
    · rw [if_pos (by rw [hk']), if_pos hk']
    · rw [if_neg (by omega), if_neg hk']
      exact h r hr k hk
  · rw [if_neg, if_neg (by omega)]
    · exact h r hr k hk
    · intro hindex
      have hdiv := congrArg (· / width) hindex
      simp only [Nat.mul_add_div (show 0 < width by decide), Nat.div_eq_of_lt hk,
        Nat.div_eq_of_lt hcol, Nat.add_zero] at hdiv
      exact hrow hdiv

lemma Simulates.printNewline (h : Simulates top c p) :
    ∃ top', top ≤ top' ∧ Simulates top' c.printNewline p.newline := by
  have hready := h.toReady.printNewline
  have hdressed := h.toDressed.printNewline
  have hbelow : ∀ r, p.newline.row < r → ∀ k, p.newline.cells r k = 0 :=
    fun r hr => h.below r (Nat.lt_of_succ_lt hr)
  by_cases hlast : (height : ℤ) ≤ c.y + 1
  · have hy : c.y + 1 = height := le_antisymm (Int.add_one_le_iff.mpr h.y_lt) hlast
    have hrow : p.row = top + 24 := by
      have := h.y
      simp only [height] at hy
      omega
    refine ⟨top + 1, Nat.le_succ top, hready, hdressed, printNewline_x, ?_, ?_, hbelow⟩
    · rw [printNewline_y, min_eq_right (by omega)]
      simp only [Page.newline, hrow, height]
      push_cast
      ring
    · have hscroll : c.printNewline =
          TextConsole.scrollUp { c with x := 0, y := (height : ℤ) - 1 } := if_pos hlast
      rw [hscroll]
      exact Window.scrollUp (c := { c with x := 0, y := (height : ℤ) - 1 }) h.window
        fun k _ => h.below _ (by simp only [hrow, height]; omega) k
  · refine ⟨top, le_rfl, hready, hdressed, printNewline_x, ?_, ?_, hbelow⟩
    · rw [printNewline_y, min_eq_left (by omega), h.y]
      simp only [Page.newline]
      push_cast
      ring
    · have hstay : c.printNewline = { c with x := 0, y := c.y + 1 } := if_neg hlast
      rw [hstay]
      exact h.window

lemma Simulates.wrap (h : Simulates top c p) :
    ∃ top', top ≤ top' ∧ Simulates top' (if c.x = width then c.printNewline else c)
      (if p.col = width then p.newline else p) ∧
      (if p.col = width then p.newline else p).col < width := by
  have hcol : c.x = width ↔ p.col = width := by
    rw [h.x]
    exact Int.natCast_inj
  by_cases hfull : p.col = width
  · obtain ⟨top', htop, hnewline⟩ := h.printNewline
    simp only [if_pos hfull, if_pos (hcol.mpr hfull)]
    exact ⟨top', htop, hnewline, (by decide : 0 < width)⟩
  · have hle := h.x_le
    rw [h.x] at hle
    simp only [if_neg hfull, if_neg (mt hcol.mp hfull)]
    exact ⟨top, le_rfl, h, lt_of_le_of_ne (Int.ofNat_le.mp hle) hfull⟩

/-- A character in the last cell scrolls at once. -/
lemma Simulates.printCharacter (h : Simulates top c p) (theChar : BitVec 8) :
    ∃ top', top ≤ top' ∧ Simulates top' (c.printCharacter theChar) (p.write theChar) := by
  have hready := h.toReady.printCharacter theChar
  have hdressed := h.toDressed.printCharacter theChar
  obtain ⟨top', htop, hwrap, hcol⟩ := h.wrap
  unfold TextConsole.printCharacter Page.write at *
  dsimp only at *
  generalize (if c.x = width then c.printNewline else c) = d at *
  generalize (if p.col = width then p.newline else p) = q at *
  have hy := hwrap.y
  have hy_nonneg := hwrap.y_nonneg
  have hrow : d.y = ((q.row - top' : ℕ) : ℤ) := by omega
  have hcell : top' + (q.row - top') = q.row := by omega
  have hset := hwrap.window.setCurrentCharacter hwrap.toReady hwrap.x hrow hcol
    (theChar.setWidth 16 ||| d.blank)
  rw [hcell, blank, charByte_cell] at hset
  have hbelow : ∀ r, q.row < r → ∀ k, Function.update q.cells q.row
      (Function.update (q.cells q.row) q.col theChar) r k = 0 := by
    intro r hr k
    rw [Function.update_of_ne hr.ne']
    exact hwrap.below r hr k
  have hx : (d.setCurrentCharacter (theChar.setWidth 16 ||| d.blank)).x + 1 =
      ((q.col + 1 : ℕ) : ℤ) := by
    rw [Nat.cast_succ, ← hwrap.x]
    rfl
  split_ifs at * with hlast
  · have hy' : d.y = height - 1 := hlast.2
    refine ⟨top' + 1, Nat.le_succ_of_le htop, hready, hdressed, hx, ?_, ?_, hbelow⟩
    · show d.y - 1 = (q.row : ℤ) - ((top' + 1 : ℕ) : ℤ)
      push_cast
      omega
    · refine Window.scrollUp (c := { d.setCurrentCharacter (theChar.setWidth 16 ||| d.blank) with
        x := (d.setCurrentCharacter (theChar.setWidth 16 ||| d.blank)).x + 1 }) hset fun k _ => ?_
      refine hbelow _ ?_ k
      simp only [height] at *
      omega
  · exact ⟨top', htop, hready, hdressed, hx, hy, hset, hbelow⟩

lemma Simulates.printByte (h : Simulates top c p) {theChar : BitVec 8} (hchar : theChar ≠ 0x08) :
    ∃ top', top ≤ top' ∧ Simulates top' (c.printByte theChar) (p.put theChar) := by
  unfold TextConsole.printByte Page.put
  split_ifs
  · exact h.printNewline
  · exact ⟨top, le_rfl, h.toReady.printCarriageReturn, h.toDressed.moved 0 c.y, rfl, h.y, h.window,
      h.below⟩
  · exact h.printCharacter theChar

lemma Simulates.printEnd (h : Simulates top c p) : Simulates top c.printEnd p := by
  obtain ⟨hdressed, hsame⟩ := h.toDressed.printEnd
  refine ⟨h.toReady.printEnd, hdressed, hsame.x.trans h.x, hsame.y.trans h.y, ?_, h.below⟩
  intro r hr k hk
  have hindex : width * r + k < width * height := by
    simp only [width, height] at *
    omega
  rw [hsame.chars _ hindex]
  exact h.window r hr k hk

lemma Simulates.printString (h : Simulates top c p) {string : List (BitVec 8)}
    (hstring : 0x08 ∉ string.takeWhile (· ≠ 0)) :
    ∃ top', top ≤ top' ∧ Simulates top' (printString string c) (p.render string) := by
  induction string generalizing top c p with
  | nil => exact ⟨top, le_rfl, h.printEnd⟩
  | cons theChar string ih =>
    rw [TextConsole.printString, Page.render]
    split_ifs with hzero
    · rw [List.takeWhile_cons_of_neg (by simp [hzero])]
      exact ⟨top, le_rfl, h.printEnd⟩
    · rw [List.takeWhile_cons_of_pos (by simpa using hzero)] at hstring ⊢
      obtain ⟨mid, hmid, hput⟩ := h.printByte (List.ne_of_not_mem_cons hstring).symm
      obtain ⟨top', htop, hrest⟩ := ih hput (List.not_mem_of_not_mem_cons hstring)
      exact ⟨top', hmid.trans htop, hrest⟩

lemma Simulates.run (h : Simulates top c p) {call : Call} (hcall : call.Plain) :
    ∃ top', top ≤ top' ∧ Simulates top' (call.run c) (p.render call.string) := by
  have hcolored : Simulates top { c with color := call.color } p :=
    ⟨⟨⟨h.y_nonneg, h.y_lt, h.x_nonneg, h.x_le, h.unclamped⟩, h.inBuffer⟩, ⟨hcall.color, h.cells⟩,
      h.x, h.y, h.window, h.below⟩
  exact hcolored.printString hcall.string

lemma Simulates.runs (h : Simulates top c p) {calls : List Call}
    (hcalls : ∀ call ∈ calls, call.Plain) :
    ∃ tops : ℕ → ℕ, Monotone tops ∧ tops 0 = top ∧ ∀ n, Simulates (tops n)
      ((calls.take n).foldl (fun c call => call.run c) c)
      ((calls.take n).foldl (fun p call => p.render call.string) p) := by
  induction calls generalizing top c p with
  | nil =>
    refine ⟨fun _ => top, monotone_const, rfl, fun n => ?_⟩
    rw [List.take_nil]
    exact h
  | cons call calls ih =>
    obtain ⟨top', htop, hcall⟩ := h.run (hcalls call List.mem_cons_self)
    obtain ⟨tops, hmono, hzero, hrest⟩ := ih hcall fun d hd => hcalls d (List.mem_cons_of_mem _ hd)
    refine ⟨fun n => n.casesOn top tops, monotone_nat_of_le_succ fun n => ?_, rfl, fun n => ?_⟩
    · cases n with
      | zero => exact htop.trans_eq hzero.symm
      | succ n => exact hmono n.le_succ
    · cases n with
      | zero => exact h
      | succ n => exact hrest n

end

lemma simulates_init (buffer : ℕ → BitVec 16) :
    Simulates 0 (initConsole { buffer := buffer }) {} := by
  have hready : (initConsole { buffer := buffer }).Ready :=
    Ready.start (s := ⟨initConsole { buffer := buffer }, none⟩) ⟨rfl, buffer, rfl⟩
  refine ⟨hready, initConsole_dressed buffer, rfl, rfl, fun r hr k hk => ?_, fun _ _ _ => rfl⟩
  have hindex : width * r + k < width * height := by
    simp only [width, height] at *
    omega
  have hzero : (initConsole { buffer := buffer }).buffer (width * r + k) = 0 := if_pos hindex
  rw [hzero]
  rfl

/-- After every call the console shows a window onto the page of all characters so far, and
the window never moves back. -/
theorem console_shows_page (buffer : ℕ → BitVec 16) {calls : List Call}
    (hcalls : ∀ call ∈ calls, call.Plain) :
    ∃ top : ℕ → ℕ, Monotone top ∧ ∀ n, Shows (top n)
      ((calls.take n).foldl (fun c call => call.run c) (initConsole { buffer := buffer }))
      ((calls.take n).foldl (fun p call => p.render call.string) {}) := by
  obtain ⟨top, hmono, -, hruns⟩ := (simulates_init buffer).runs hcalls
  exact ⟨top, hmono, fun n => (hruns n).shows⟩

/-- Two calls, the second in another color. -/
theorem console_shows_page_two : ∃ calls : List Call, calls.length = 2 ∧
    ∃ top : ℕ → ℕ, Monotone top ∧ ∀ n, Shows (top n)
      ((calls.take n).foldl (fun c call => call.run c) (initConsole { buffer := fun _ => 7 }))
      ((calls.take n).foldl (fun p call => p.render call.string) {}) := by
  refine ⟨[⟨0xa, [0x61, 0x0a]⟩, ⟨0xc, [0x0d, 0x62]⟩], rfl, console_shows_page _ ?_⟩
  rintro call hcall
  obtain rfl | rfl : call = ⟨0xa, [0x61, 0x0a]⟩ ∨ call = ⟨0xc, [0x0d, 0x62]⟩ := by simpa using hcall
  · exact ⟨by decide, by decide⟩
  · exact ⟨by decide, by decide⟩

end Anarch.TextConsole
