import Anarch.Stream

/-! What the console shows, apart from its attributes: a string may be printed in pieces. -/
namespace Anarch.TextConsole

def charByte (cell : BitVec 16) : BitVec 8 := cell.setWidth 8

def attrByte (cell : BitVec 16) : BitVec 8 := (cell >>> 8).setWidth 8

/-- The color is an attribute, and a cell that has none has no character either. -/
structure Dressed (c : TextConsole) : Prop where
  color : c.color ≠ 0
  cells : ∀ i < width * height, attrByte (c.buffer i) = 0 → charByte (c.buffer i) = 0

/-- The same cursor, the same color and the same character in every cell. -/
structure SameText (c d : TextConsole) : Prop where
  x : c.x = d.x
  y : c.y = d.y
  color : c.color = d.color
  chars : ∀ i < width * height, charByte (c.buffer i) = charByte (d.buffer i)

lemma charByte_cell (theChar color : BitVec 8) :
    charByte (theChar.setWidth 16 ||| color.setWidth 16 <<< 8) = theChar := by
  apply BitVec.eq_of_getLsbD_eq
  intro i hi
  simp [charByte, hi]

lemma attrByte_cell (theChar color : BitVec 8) :
    attrByte (theChar.setWidth 16 ||| color.setWidth 16 <<< 8) = color := by
  apply BitVec.eq_of_getLsbD_eq
  intro i hi
  have hout : ¬ 8 + i < 8 := by omega
  have hin : 8 + i < 16 := by omega
  simp [attrByte, hi, hin]

lemma and_0xff_eq_zero {cell : BitVec 16} : cell &&& 0xff = 0 ↔ charByte cell = 0 := by
  have hmask : (cell &&& 0xff).toNat = cell.toNat % 256 := by
    rw [BitVec.toNat_and]
    exact Nat.and_two_pow_sub_one_eq_mod _ 8
  rw [← BitVec.toNat_inj, ← BitVec.toNat_inj, hmask, charByte, BitVec.toNat_setWidth]
  rfl

lemma and_0xff00_eq_zero {cell : BitVec 16} : cell &&& 0xff00 = 0 ↔ attrByte cell = 0 := by
  have hmask : cell &&& (0xff00 : BitVec 16) = cell >>> 8 <<< 8 := by
    have hbits : ∀ i : Fin 16, (0xff00 : BitVec 16).getLsbD i = decide (8 ≤ (i : ℕ)) := by decide
    apply BitVec.eq_of_getLsbD_eq
    intro i hi
    have hbit : (0xff00 : BitVec 16).getLsbD i = decide (8 ≤ i) := hbits ⟨i, hi⟩
    rw [BitVec.getLsbD_and, hbit]
    by_cases h : 8 ≤ i
    · simp [h, hi, Nat.add_sub_cancel' h]
    · simp [h, Nat.not_le.mp h]
  have hcell := cell.isLt
  rw [hmask, ← BitVec.toNat_inj, ← BitVec.toNat_inj, attrByte, BitVec.toNat_setWidth,
    BitVec.toNat_shiftLeft, BitVec.toNat_ushiftRight, Nat.shiftRight_eq_div_pow, Nat.shiftLeft_eq]
  show _ = 0 ↔ _ = 0
  omega

lemma getBufferIndex_lt (c : TextConsole) : c.getBufferIndex.toNat < width * height := by
  rw [getBufferIndex]
  split_ifs with h
  · decide
  · simpa [clamps] using h

section
variable {c d : TextConsole}

lemma SameText.refl (c : TextConsole) : SameText c c := ⟨rfl, rfl, rfl, fun _ _ => rfl⟩

lemma SameText.symm (h : SameText c d) : SameText d c :=
  ⟨h.x.symm, h.y.symm, h.color.symm, fun i hi => (h.chars i hi).symm⟩

lemma SameText.trans {e : TextConsole} (h : SameText c d) (h' : SameText d e) : SameText c e :=
  ⟨h.x.trans h'.x, h.y.trans h'.y, h.color.trans h'.color,
    fun i hi => (h.chars i hi).trans (h'.chars i hi)⟩

lemma SameText.getBufferIndex (h : SameText c d) : c.getBufferIndex = d.getBufferIndex := by
  have hposition : c.position = d.position := by rw [position, position, h.x, h.y]
  rw [TextConsole.getBufferIndex, TextConsole.getBufferIndex, clamps, clamps, hposition]

lemma SameText.blank (h : SameText c d) : c.blank = d.blank := by
  rw [TextConsole.blank, TextConsole.blank, h.color]

lemma SameText.currentCharacter (h : SameText c d) :
    c.currentCharacter &&& 0xff = 0 ↔ d.currentCharacter &&& 0xff = 0 := by
  rw [and_0xff_eq_zero, and_0xff_eq_zero, TextConsole.currentCharacter,
    TextConsole.currentCharacter, h.chars _ (getBufferIndex_lt c), h.getBufferIndex]

lemma SameText.moved (h : SameText c d) {x x' y y' : ℤ} (hx : x = x') (hy : y = y') :
    SameText { c with x := x, y := y } { d with x := x', y := y' } := ⟨hx, hy, h.color, h.chars⟩

lemma SameText.setCurrentCharacter (h : SameText c d) {v w : BitVec 16}
    (hv : charByte v = charByte w) :
    SameText (c.setCurrentCharacter v) (d.setCurrentCharacter w) := by
  refine ⟨h.x, h.y, h.color, fun i hi => ?_⟩
  simp only [TextConsole.setCurrentCharacter, Function.update_apply, h.getBufferIndex]
  split_ifs
  · exact hv
  · exact h.chars i hi

lemma SameText.scrollUp (h : SameText c d) : SameText c.scrollUp d.scrollUp := by
  refine ⟨h.x, h.y, h.color, fun i hi => ?_⟩
  rw [scrollUp_buffer c hi, scrollUp_buffer d hi]
  split_ifs with hlast
  · exact h.chars _ (Nat.add_lt_of_lt_sub hlast)
  · rfl

lemma SameText.printNewline (h : SameText c d) : SameText c.printNewline d.printNewline := by
  unfold TextConsole.printNewline
  rw [h.y]
  dsimp only
  split_ifs
  · exact (h.moved rfl rfl).scrollUp
  · exact h.moved rfl rfl

lemma SameText.findLineEnd (h : SameText c d) (n : ℕ) :
    SameText (findLineEnd n c) (findLineEnd n d) := by
  induction n generalizing c d with
  | zero => exact h
  | succ n ih =>
    rw [TextConsole.findLineEnd, TextConsole.findLineEnd, h.x]
    simp only [h.currentCharacter]
    split_ifs
    · exact ⟨h.x, h.y, h.color, h.chars⟩
    · exact ih ⟨rfl, h.y, h.color, h.chars⟩
    · exact h

lemma SameText.printBackspace (h : SameText c d) :
    SameText c.printBackspace d.printBackspace := by
  unfold TextConsole.printBackspace
  rw [h.x, h.blank]
  split_ifs
  · exact (h.moved rfl h.y).setCurrentCharacter rfl
  · have hline := (h.moved (x := 0) rfl (congrArg (· - 1) h.y)).findLineEnd width
    dsimp only
    generalize TextConsole.findLineEnd width _ = c' at hline
    generalize TextConsole.findLineEnd width _ = d' at hline
    rw [hline.x]
    split_ifs
    · exact (hline.moved rfl hline.y).setCurrentCharacter (congrArg charByte hline.blank)
    · exact hline.setCurrentCharacter (congrArg charByte hline.blank)

lemma SameText.printCharacter (h : SameText c d) (theChar : BitVec 8) :
    SameText (c.printCharacter theChar) (d.printCharacter theChar) := by
  have hwrap : SameText (if c.x = width then c.printNewline else c)
      (if d.x = width then d.printNewline else d) := by
    rw [h.x]
    split_ifs
    · exact h.printNewline
    · exact h
  unfold TextConsole.printCharacter
  dsimp only
  generalize (if c.x = width then c.printNewline else c) = c' at hwrap
  generalize (if d.x = width then d.printNewline else d) = d' at hwrap
  have hset := hwrap.setCurrentCharacter
    (congrArg (fun blank => charByte (theChar.setWidth 16 ||| blank)) hwrap.blank)
  generalize c'.setCurrentCharacter _ = c'' at hset
  generalize d'.setCurrentCharacter _ = d'' at hset
  rw [hset.x, hset.y]
  split_ifs
  · exact (hset.moved rfl rfl).scrollUp
  · exact hset.moved rfl rfl

lemma SameText.printByte (h : SameText c d) (theChar : BitVec 8) :
    SameText (c.printByte theChar) (d.printByte theChar) := by
  unfold TextConsole.printByte
  split_ifs
  · exact h.printNewline
  · exact h.moved rfl h.y
  · exact h.printBackspace
  · exact h.printCharacter theChar

lemma Dressed.moved (h : Dressed c) (x y : ℤ) : Dressed { c with x := x, y := y } := ⟨h.1, h.2⟩

lemma Dressed.setCurrentCharacter (h : Dressed c) {v : BitVec 16} (hv : attrByte v = c.color) :
    Dressed (c.setCurrentCharacter v) := by
  refine ⟨h.color, fun i hi => ?_⟩
  simp only [TextConsole.setCurrentCharacter, Function.update_apply]
  split_ifs
  · intro hzero
    exact absurd (hv.symm.trans hzero) h.color
  · exact h.cells i hi

lemma blank_eq (c : TextConsole) : c.blank = (0 : BitVec 8).setWidth 16 ||| c.blank := by
  have hzero : (0 : BitVec 8).setWidth 16 = (0 : BitVec 16) := rfl
  rw [hzero]
  exact BitVec.zero_or.symm

lemma attrByte_blank (c : TextConsole) : attrByte c.blank = c.color := by
  rw [blank_eq]
  exact attrByte_cell 0 c.color

lemma charByte_blank (c : TextConsole) : charByte c.blank = 0 := by
  rw [blank_eq]
  exact charByte_cell 0 c.color

lemma Dressed.scrollUp (h : Dressed c) : Dressed c.scrollUp := by
  refine ⟨h.color, fun i hi => ?_⟩
  rw [scrollUp_buffer c hi]
  split_ifs with hlast
  · exact h.cells _ (Nat.add_lt_of_lt_sub hlast)
  · exact fun _ => rfl

lemma Dressed.printNewline (h : Dressed c) : Dressed c.printNewline := by
  unfold TextConsole.printNewline
  dsimp only
  split_ifs
  · exact (h.moved 0 (height - 1)).scrollUp
  · exact h.moved 0 (c.y + 1)

lemma Dressed.findLineEnd (h : Dressed c) (n : ℕ) : Dressed (findLineEnd n c) := by
  induction n generalizing c with
  | zero => exact h
  | succ n ih =>
    rw [TextConsole.findLineEnd]
    split_ifs
    · exact ⟨h.1, h.2⟩
    · exact ih ⟨h.1, h.2⟩
    · exact h

lemma Dressed.printBackspace (h : Dressed c) : Dressed c.printBackspace := by
  unfold TextConsole.printBackspace
  split_ifs
  · exact (h.moved (c.x - 1) c.y).setCurrentCharacter (attrByte_blank c)
  · have hline := (h.moved 0 (c.y - 1)).findLineEnd width
    dsimp only
    split_ifs
    · exact (hline.moved _ _).setCurrentCharacter (attrByte_blank _)
    · exact hline.setCurrentCharacter (attrByte_blank _)

lemma Dressed.printCharacter (h : Dressed c) (theChar : BitVec 8) :
    Dressed (c.printCharacter theChar) := by
  have hwrap : Dressed (if c.x = width then c.printNewline else c) := by
    split_ifs
    · exact h.printNewline
    · exact h
  unfold TextConsole.printCharacter
  dsimp only
  generalize (if c.x = width then c.printNewline else c) = d at hwrap
  have hset := hwrap.setCurrentCharacter (attrByte_cell theChar d.color)
  rw [blank]
  generalize d.setCurrentCharacter _ = e at hset
  split_ifs
  · exact (hset.moved _ _).scrollUp.moved _ _
  · exact hset.moved _ _

lemma Dressed.printByte (h : Dressed c) (theChar : BitVec 8) : Dressed (c.printByte theChar) := by
  unfold TextConsole.printByte
  split_ifs
  · exact h.printNewline
  · exact h.moved 0 c.y
  · exact h.printBackspace
  · exact h.printCharacter theChar

lemma Dressed.positionCursor (h : Dressed c) :
    Dressed c.positionCursor ∧ SameText c.positionCursor c :=
  ⟨⟨h.1, h.2⟩, ⟨rfl, rfl, rfl, fun _ _ => rfl⟩⟩

lemma Dressed.printEnd (h : Dressed c) : Dressed c.printEnd ∧ SameText c.printEnd c := by
  have hnote : Dressed c.noteIndex := ⟨h.1, h.2⟩
  have hsame : SameText c.noteIndex c := ⟨rfl, rfl, rfl, fun _ _ => rfl⟩
  unfold TextConsole.printEnd
  dsimp only
  split_ifs with hblank
  · -- the cell under the cursor has no attribute, so it holds no character either
    have hempty : charByte (c.buffer c.getBufferIndex.toNat) = 0 :=
      h.cells _ (getBufferIndex_lt c) (and_0xff00_eq_zero.mp hblank)
    have hset := hnote.setCurrentCharacter (attrByte_blank c.noteIndex)
    refine ⟨hset.positionCursor.1, hset.positionCursor.2.trans ⟨rfl, rfl, rfl, fun i _ => ?_⟩⟩
    simp only [TextConsole.setCurrentCharacter, Function.update_apply]
    split_ifs with hi
    · rw [hi, charByte_blank]
      exact hempty.symm
    · rfl
  · exact ⟨hnote.positionCursor.1, hnote.positionCursor.2.trans hsame⟩

/-- The characters of a string without NUL, one after the other. -/
def printBytes (string : List (BitVec 8)) (c : TextConsole) : TextConsole :=
  string.foldl (fun c theChar => printByte theChar c) c

lemma printString_eq {string : List (BitVec 8)} (hstring : 0 ∉ string) :
    printString string c = printEnd (printBytes string c) := by
  induction string generalizing c with
  | nil => rfl
  | cons theChar string ih =>
    rw [printString, if_neg (List.ne_of_not_mem_cons hstring).symm,
      ih (List.not_mem_of_not_mem_cons hstring)]
    rfl

lemma SameText.printBytes (h : SameText c d) (string : List (BitVec 8)) :
    SameText (printBytes string c) (printBytes string d) := by
  induction string generalizing c d with
  | nil => exact h
  | cons theChar string ih => exact ih (h.printByte theChar)

lemma Dressed.printBytes (h : Dressed c) (string : List (BitVec 8)) :
    Dressed (printBytes string c) := by
  induction string generalizing c with
  | nil => exact h
  | cons theChar string ih => exact ih (h.printByte theChar)

lemma Dressed.printString (h : Dressed c) {string : List (BitVec 8)} (hstring : 0 ∉ string) :
    Dressed (printString string c) ∧
      SameText (TextConsole.printString string c) (TextConsole.printBytes string c) := by
  rw [printString_eq hstring]
  exact (h.printBytes string).printEnd

/-- A string may be printed in two pieces. -/
theorem printString_append (h : Dressed c) {a b : List (BitVec 8)} (ha : 0 ∉ a) (hb : 0 ∉ b) :
    SameText (printString b (printString a c)) (printString (a ++ b) c) ∧
      Dressed (printString b (printString a c)) ∧ Dressed (printString (a ++ b) c) := by
  obtain ⟨hfirst, hshown⟩ := h.printString ha
  obtain ⟨hsecond, hshown'⟩ := hfirst.printString hb
  obtain ⟨hwhole, hshown''⟩ := h.printString (List.not_mem_append ha hb)
  refine ⟨?_, hsecond, hwhole⟩
  have happend : printBytes (a ++ b) c = printBytes b (printBytes a c) := List.foldl_append
  rw [happend] at hshown''
  exact (hshown'.trans (hshown.printBytes b)).trans hshown''.symm

end

lemma initConsole_dressed (buffer : ℕ → BitVec 16) : Dressed (initConsole { buffer := buffer }) := by
  refine ⟨(by decide : (0xa : BitVec 8) ≠ 0), fun i hi _ => ?_⟩
  have hzero : (initConsole { buffer := buffer }).buffer i = 0 := if_pos hi
  rw [hzero]
  rfl

/-- A line, and a backspace that climbs back to it from the next one. -/
theorem printString_append_climb : ∃ c : TextConsole, Dressed c ∧
    SameText (printString [0x08, 0x62] (printString [0x61, 0x0a] c))
      (printString [0x61, 0x0a, 0x08, 0x62] c) :=
  ⟨zeroed.console, initConsole_dressed _,
    (printString_append (initConsole_dressed _) (by decide) (by decide)).1⟩

end Anarch.TextConsole
