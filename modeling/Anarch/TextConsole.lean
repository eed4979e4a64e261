import Mathlib.Data.Int.ModEq
import Mathlib.Tactic.SplitIfs
import Anarch.TransitionRun

/-! The text console: the character handlers of `PrintString`, the clamp of `GetBufferIndex`
and the cursor after every character of a run. -/
namespace Anarch
open TransitionRun

/-- `Console::Color`. -/
inductive Color
  | black
  | blue
  | green
  | cyan
  | red
  | magenta
  | brown
  | lightGray
  deriving DecidableEq, Repr

def Color.toByte : Color → BitVec 8
  | black => 0
  | blue => 1
  | green => 2
  | cyan => 3
  | red => 4
  | magenta => 5
  | brown => 6
  | lightGray => 7

/-- The fields of a `TextConsole`, the cells at `0xb8000`, the bytes sent to ports and
whether some `GetBufferIndex` needed its clamp. -/
structure TextConsole where
  color : BitVec 8 := 0xa
  x : ℤ := 0
  y : ℤ := 0
  buffer : ℕ → BitVec 16
  ports : List (BitVec 16 × BitVec 8) := []
  clamped : Bool := false

namespace TextConsole

def width : ℕ := 80
def height : ℕ := 25

/-- `Initialize`: `Bzero` of the whole buffer. -/
def initConsole (c : TextConsole) : TextConsole :=
  { c with buffer := fun i => if i < width * height then 0 else c.buffer i }

/-- `color << 8`. -/
def blank (c : TextConsole) : BitVec 16 := c.color.setWidth 16 <<< 8

/-- The index before the clamp, cut to `uint16_t`. -/
def position (c : TextConsole) : BitVec 16 := .ofInt 16 (c.y * width + c.x)

def clamps (c : TextConsole) : Bool := width * height ≤ c.position.toNat

def getBufferIndex (c : TextConsole) : BitVec 16 :=
  if c.clamps then .ofNat 16 (width * height - 1) else c.position

/-- A call of `GetBufferIndex`. -/
def noteIndex (c : TextConsole) : TextConsole := { c with clamped := c.clamped || c.clamps }

def currentCharacter (c : TextConsole) : BitVec 16 := c.buffer c.getBufferIndex.toNat

def setCurrentCharacter (v : BitVec 16) (c : TextConsole) : TextConsole :=
  { c.noteIndex with buffer := Function.update c.buffer c.getBufferIndex.toNat v }

def copyUp (n : ℕ) (buffer : ℕ → BitVec 16) : ℕ → BitVec 16 :=
  (List.range n).foldl (fun b i => Function.update b i (b (i + width))) buffer

def clearFrom (first n : ℕ) (buffer : ℕ → BitVec 16) : ℕ → BitVec 16 :=
  (List.range' first n).foldl (fun b i => Function.update b i 0) buffer

def scrollUp (c : TextConsole) : TextConsole :=
  { c with buffer :=
      clearFrom (width * (height - 1)) width (copyUp (width * (height - 1)) c.buffer) }

def printNewline (c : TextConsole) : TextConsole :=
  let c := { c with x := 0, y := c.y + 1 }
  if (height : ℤ) ≤ c.y then scrollUp { c with y := height - 1 } else c

def printCarriageReturn (c : TextConsole) : TextConsole := { c with x := 0 }

/-- The loop of `PrintBackspace` over the line, with the rounds it has left. -/
def findLineEnd : ℕ → TextConsole → TextConsole
  | 0, c => c
  | n + 1, c =>
      if c.x < width then
        if c.currentCharacter &&& 0xff = 0 then c.noteIndex
        else findLineEnd n { c.noteIndex with x := c.x + 1 }
      else c

def printBackspace (c : TextConsole) : TextConsole :=
  if c.x ≠ 0 then setCurrentCharacter c.blank { c with x := c.x - 1 }
  else
    let c := findLineEnd width { c with x := 0, y := c.y - 1 }
    let c := if c.x = width then { c with x := c.x - 1 } else c
    setCurrentCharacter c.blank c

def printCharacter (theChar : BitVec 8) (c : TextConsole) : TextConsole :=
  let c := if c.x = width then printNewline c else c
  let c := setCurrentCharacter (theChar.setWidth 16 ||| c.blank) c
  let c := { c with x := c.x + 1 }
  if c.x = 80 ∧ c.y = (height : ℤ) - 1 then { c.scrollUp with y := c.y - 1 } else c

/-- The `switch` of `PrintString`. -/
def printByte (theChar : BitVec 8) (c : TextConsole) : TextConsole :=
  if theChar = 0x0a then printNewline c
  else if theChar = 0x0d then printCarriageReturn c
  else if theChar = 0x08 then printBackspace c
  else printCharacter theChar c

/-- `OutB`, which asserts a critical section: `PrintString` is one. -/
def outB (port : BitVec 16) (byte : BitVec 8) (c : TextConsole) : TextConsole :=
  { c with ports := c.ports ++ [(port, byte)] }

def positionCursor (c : TextConsole) : TextConsole :=
  let position := c.getBufferIndex
  let c := c.noteIndex
  let c := c.outB 0x3D4 0x0f
  let c := c.outB 0x3D5 (position.setWidth 8)
  let c := c.outB 0x3D4 0x0e
  c.outB 0x3D5 ((position >>> 8).setWidth 8)

/-- What `PrintString` does after its loop. -/
def printEnd (c : TextConsole) : TextConsole :=
  let blankHere := c.currentCharacter &&& 0xff00 = 0
  let c := c.noteIndex
  positionCursor (if blankHere then setCurrentCharacter c.blank c else c)

/-- `PrintString` of a string that ends at its first NUL. -/
def printString : List (BitVec 8) → TextConsole → TextConsole
  | [], c => printEnd c
  | theChar :: string, c =>
      if theChar = 0 then printEnd c else printString string (printByte theChar c)

def setColor (color : Color) (bright : Bool) (c : TextConsole) : TextConsole :=
  { c with color := color.toByte ||| if bright then 8 else 0 }

/-- The console between two characters: what the `PrintString` that holds the lock still has
to print. -/
structure State where
  console : TextConsole
  printing : Option (List (BitVec 8)) := none

inductive Action
  | printString (string : List (BitVec 8))
  | advance
  | setColor (color : Color) (bright : Bool)
  deriving DecidableEq

def step (s : State) : Action → Option State
  | .printString string =>
      match s.printing with
      | none => some { s with printing := some string }
      | some _ => none
  | .advance =>
      match s.printing with
      | none => none
      | some [] => some ⟨printEnd s.console, none⟩
      | some (theChar :: string) =>
          if theChar = 0 then some ⟨printEnd s.console, none⟩
          else some ⟨printByte theChar s.console, some string⟩
  | .setColor color bright =>
      match s.printing with
      | none => some { s with console := setColor color bright s.console }
      | some _ => none

/-- The console from its initialization on. -/
def system : System State Action where
  start s := s.printing = none ∧ ∃ buffer, s.console = initConsole { buffer := buffer }
  step s a t := step s a = some t

/-- The characters of a string, taken one at a time, are a call of `PrintString`. -/
theorem advance_printString (string : List (BitVec 8)) (c : TextConsole) :
    (List.replicate ((string.takeWhile (· ≠ 0)).length + 1) Action.advance).foldlM step
      ⟨c, some string⟩ = some ⟨printString string c, none⟩ := by
  induction string generalizing c with
  | nil => rfl
  | cons theChar string ih =>
    by_cases h : theChar = 0
    · simp [h, List.replicate_one, step, printString]
    · have hadvance : step ⟨c, some (theChar :: string)⟩ .advance =
          some ⟨printByte theChar c, some string⟩ := if_neg h
      rw [List.takeWhile_cons_of_pos (by simpa using h), List.length_cons, List.replicate_succ,
        List.foldlM_cons, hadvance, printString, if_neg h]
      exact ih _

lemma copyUp_apply (n : ℕ) (buffer : ℕ → BitVec 16) (i : ℕ) :
    copyUp n buffer i = if i < n then buffer (i + width) else buffer i := by
  induction n generalizing i with
  | zero => rfl
  | succ n ih =>
    have hstep : copyUp (n + 1) buffer =
        Function.update (copyUp n buffer) n (copyUp n buffer (n + width)) := by
      simp only [copyUp, List.range_succ, List.foldl_append, List.foldl_cons, List.foldl_nil]
    rw [hstep, Function.update_apply]
    split_ifs with hi hlt hlt
    · rw [ih, if_neg (by omega), hi]
    · omega
    · rw [ih, if_pos (by omega)]
    · rw [ih, if_neg (by omega)]

lemma clearFrom_apply (first n : ℕ) (buffer : ℕ → BitVec 16) (i : ℕ) :
    clearFrom first n buffer i = if first ≤ i ∧ i < first + n then 0 else buffer i := by
  induction n with
  | zero =>
    rw [if_neg (by omega)]
    rfl
  | succ n ih =>
    have hstep : clearFrom first (n + 1) buffer =
        Function.update (clearFrom first n buffer) (first + n) 0 := by
      simp only [clearFrom, List.range'_1_concat, List.foldl_append, List.foldl_cons,
        List.foldl_nil]
    rw [hstep, Function.update_apply]
    split_ifs with hi hlt hlt
    · rfl
    · omega
    · rw [ih, if_pos (by omega)]
    · rw [ih, if_neg (by omega)]

/-- Scrolling moves every line up by one and leaves the last one empty. -/
theorem scrollUp_buffer (c : TextConsole) {i : ℕ} (hi : i < width * height) :
    c.scrollUp.buffer i = if i < width * (height - 1) then c.buffer (i + width) else 0 := by
  have hlines : width * height = width * (height - 1) + width := rfl
  simp only [scrollUp, clearFrom_apply, copyUp_apply]
  split_ifs with hclear hlast hlast
  · omega
  · rfl
  · rfl
  · omega

/-- The cursor is on the screen, or just behind the end of a line, and no index was clamped. -/
structure OnScreen (c : TextConsole) : Prop where
  y_nonneg : 0 ≤ c.y
  y_lt : c.y < height
  x_nonneg : 0 ≤ c.x
  x_le : c.x ≤ width
  unclamped : c.clamped = false

/-- A console on the screen whose next index needs no clamp. -/
structure Ready (c : TextConsole) : Prop extends OnScreen c where
  inBuffer : ¬(c.x = width ∧ c.y = height - 1)

section
variable {c : TextConsole}

lemma Ready.clamps (h : c.Ready) : c.clamps = false := by
  have hy := h.y_nonneg
  have hy' := h.y_lt
  have hx := h.x_nonneg
  have hx' := h.x_le
  have hlast := h.inBuffer
  simp only [TextConsole.clamps, position, BitVec.toNat_ofInt, width, height] at *
  rw [decide_eq_false_iff_not, Int.emod_eq_of_lt (by omega) (by omega)]
  omega

lemma Ready.noteIndex (h : c.Ready) : c.noteIndex.Ready where
  y_nonneg := h.y_nonneg
  y_lt := h.y_lt
  x_nonneg := h.x_nonneg
  x_le := h.x_le
  unclamped := by simp [TextConsole.noteIndex, h.unclamped, h.clamps]
  inBuffer := h.inBuffer

lemma Ready.setCurrentCharacter (h : c.Ready) (v : BitVec 16) : (c.setCurrentCharacter v).Ready where
  __ := h.noteIndex

lemma printNewline_x : c.printNewline.x = 0 := by
  unfold printNewline
  dsimp only
  split_ifs <;> rfl

lemma printNewline_y : c.printNewline.y = min (c.y + 1) (height - 1) := by
  unfold printNewline
  dsimp only
  split_ifs with hlast
  · exact (min_eq_right (Int.sub_right_le_of_le_add (hlast.trans (Int.le_add_one le_rfl)))).symm
  · exact (min_eq_left (Int.le_sub_one_of_lt (not_le.mp hlast))).symm

lemma printNewline_clamped : c.printNewline.clamped = c.clamped := by
  unfold printNewline
  dsimp only
  split_ifs <;> rfl

lemma Ready.printNewline (h : c.Ready) : c.printNewline.Ready := by
  have hy := h.y_nonneg
  refine ⟨⟨?_, ?_, ?_, ?_, printNewline_clamped.trans h.unclamped⟩, ?_⟩
  all_goals simp only [printNewline_x, printNewline_y, width, height]
  all_goals omega

lemma Ready.moved (h : c.Ready) {x y : ℤ} (hy : 0 ≤ y) (hy' : y < height) (hx : 0 ≤ x)
    (hx' : x < width) : ({ c with x := x, y := y } : TextConsole).Ready :=
  ⟨⟨hy, hy', hx, hx'.le, h.unclamped⟩, fun hlast => absurd hlast.1 hx'.ne⟩

lemma Ready.printCarriageReturn (h : c.Ready) : c.printCarriageReturn.Ready :=
  h.moved h.y_nonneg h.y_lt le_rfl (by decide)

lemma Ready.findLineEnd (n : ℕ) (h : c.Ready) (hy : c.y < height - 1) :
    (findLineEnd n c).Ready := by
  induction n generalizing c with
  | zero => exact h
  | succ n ih =>
    rw [TextConsole.findLineEnd]
    split_ifs with hx hend
    · exact h.noteIndex
    · have hnext : ({ c.noteIndex with x := c.x + 1 } : TextConsole).Ready :=
        ⟨⟨h.y_nonneg, h.y_lt, Int.add_nonneg h.x_nonneg (by decide), Int.add_one_le_iff.mpr hx,
          h.noteIndex.unclamped⟩, fun hlast => absurd hlast.2 hy.ne⟩
      exact ih hnext hy
    · exact h

lemma findLineEnd_y (n : ℕ) : (findLineEnd n c).y = c.y := by
  induction n generalizing c with
  | zero => rfl
  | succ n ih =>
    rw [findLineEnd]
    split_ifs
    · rfl
    · exact ih
    · rfl

lemma Ready.printBackspace (h : c.Ready) (htop : ¬(c.x = 0 ∧ c.y = 0)) :
    c.printBackspace.Ready := by
  have hy := h.y_nonneg
  have hy' := h.y_lt
  have hx := h.x_nonneg
  have hx' := h.x_le
  unfold TextConsole.printBackspace
  split_ifs with hzero
  · have hleft : ({ c with x := c.x - 1 } : TextConsole).Ready :=
      h.moved hy hy' (by omega) (by omega)
    exact hleft.setCurrentCharacter _
  · have habove : ({ c with x := 0, y := c.y - 1 } : TextConsole).Ready :=
      h.moved (by omega) (by omega) le_rfl (by decide)
    have hfound := habove.findLineEnd width (by dsimp only; omega)
    dsimp only
    generalize TextConsole.findLineEnd width _ = d at hfound
    split_ifs with hend
    · have hlast : ({ d with x := d.x - 1 } : TextConsole).Ready :=
        hfound.moved hfound.y_nonneg hfound.y_lt (by rw [hend]; decide) (by rw [hend]; decide)
      exact hlast.setCurrentCharacter _
    · exact hfound.setCurrentCharacter _

lemma Ready.printCharacter (h : c.Ready) (theChar : BitVec 8) :
    (c.printCharacter theChar).Ready := by
  have hwrap : (if c.x = width then c.printNewline else c).Ready := by
    split_ifs
    · exact h.printNewline
    · exact h
  have hlt : (if c.x = width then c.printNewline else c).x < width := by
    split_ifs with hx
    · rw [printNewline_x]
      decide
    · exact lt_of_le_of_ne h.x_le hx
  unfold TextConsole.printCharacter
  dsimp only
  generalize (if c.x = width then c.printNewline else c) = d at hwrap hlt
  have hd := hwrap.setCurrentCharacter (theChar.setWidth 16 ||| d.blank)
  have hx : (d.setCurrentCharacter (theChar.setWidth 16 ||| d.blank)).x < width := hlt
  generalize d.setCurrentCharacter (theChar.setWidth 16 ||| d.blank) = e at hd hx
  have hy := hd.y_nonneg
  have hy' := hd.y_lt
  have hx0 := hd.x_nonneg
  split_ifs with hcorner
  · exact ⟨⟨by simp [hcorner.2, height], by simp [hcorner.2, height], by simp [scrollUp]; omega,
      by simp [scrollUp]; omega, hd.unclamped⟩, by simp [hcorner.2, height]⟩
  · exact ⟨⟨hy, hy', by dsimp only; omega, by dsimp only; omega, hd.unclamped⟩, hcorner⟩

lemma Ready.printByte (h : c.Ready) {theChar : BitVec 8}
    (htop : ¬(theChar = 0x08 ∧ c.x = 0 ∧ c.y = 0)) : (c.printByte theChar).Ready := by
  unfold TextConsole.printByte
  split_ifs with hnewline hreturn hbackspace
  · exact h.printNewline
  · exact h.printCarriageReturn
  · exact h.printBackspace fun hcorner => htop ⟨hbackspace, hcorner⟩
  · exact h.printCharacter theChar

lemma Ready.positionCursor (h : c.Ready) : c.positionCursor.Ready where
  __ := h.noteIndex

lemma Ready.printEnd (h : c.Ready) : c.printEnd.Ready := by
  unfold TextConsole.printEnd
  dsimp only
  split_ifs
  · exact (h.noteIndex.setCurrentCharacter _).positionCursor
  · exact h.noteIndex.positionCursor

/-- A backspace in the first cell leaves the cursor above the screen. -/
lemma printBackspace_top (hx : c.x = 0) (hy : c.y = 0) : c.printBackspace.y = -1 := by
  have hline : (findLineEnd width { c with x := 0, y := c.y - 1 }).y = -1 :=
    (findLineEnd_y width).trans (by simp [hy])
  unfold printBackspace
  rw [if_neg (by simp [hx])]
  dsimp only
  split_ifs
  · exact hline
  · exact hline

end

/-- The next character is a backspace and the cursor is in the first cell. -/
def BackspaceAtTop (s : State) (a : Action) : Prop :=
  a = .advance ∧ s.printing.bind List.head? = some 0x08 ∧ s.console.x = 0 ∧ s.console.y = 0

instance (s : State) (a : Action) : Decidable (BackspaceAtTop s a) :=
  inferInstanceAs (Decidable (_ ∧ _))

lemma Ready.step {s t : State} {a : Action} (h : s.console.Ready) (ha : ¬BackspaceAtTop s a)
    (ht : step s a = some t) : t.console.Ready := by
  cases a with
  | printString string =>
    cases hp : s.printing <;> simp only [TextConsole.step, hp, reduceCtorEq] at ht
    cases ht
    exact h
  | setColor color bright =>
    cases hp : s.printing <;> simp only [TextConsole.step, hp, reduceCtorEq] at ht
    cases ht
    exact ⟨⟨h.y_nonneg, h.y_lt, h.x_nonneg, h.x_le, h.unclamped⟩, h.inBuffer⟩
  | advance =>
    cases hp : s.printing with
    | none => simp [TextConsole.step, hp] at ht
    | some string =>
      cases string with
      | nil =>
        simp only [TextConsole.step, hp] at ht
        cases ht
        exact h.printEnd
      | cons theChar string =>
        simp only [TextConsole.step, hp] at ht
        split_ifs at ht
        · cases ht
          exact h.printEnd
        · cases ht
          refine h.printByte ?_
          rintro ⟨rfl, hcorner⟩
          exact ha ⟨rfl, by simp [hp], hcorner⟩

lemma Ready.start {s : State} (h : system.start s) : s.console.Ready := by
  obtain ⟨-, buffer, hc⟩ := h
  rw [hc]
  exact ⟨⟨le_rfl, Int.natCast_pos.mpr (by decide), le_rfl, Int.natCast_nonneg _, rfl⟩,
    fun hlast => nomatch hlast.1⟩

/-- The restriction of the system to the steps that are no backspace in the first cell. -/
abbrev belowTop : System State Action := system.restrict fun s a => ¬BackspaceAtTop s a

lemma Ready.reachable {s : State} (h : belowTop.Reachable s) : s.console.Ready :=
  h.invariant (fun _ => Ready.start) fun _ _ _ _ hs ht => hs.step ht.1 ht.2

/-- While no backspace is printed in the first cell, the cursor stays on the screen after
every character; the first one that is takes it off. -/
theorem cursor_on_screen_iff {s : State} (hs : belowTop.Reachable s) :
    s.console.OnScreen ∧ ∀ a t, system.step s a t →
      (t.console.OnScreen ↔ ¬BackspaceAtTop s a) := by
  refine ⟨(Ready.reachable hs).toOnScreen, fun a t ht => ⟨?_, fun ha => ?_⟩⟩
  · rintro hon ⟨rfl, hhead, hx, hy⟩
    obtain ⟨string, hp, hhead⟩ := Option.bind_eq_some_iff.mp hhead
    obtain ⟨rest, rfl⟩ := List.head?_eq_some_iff.mp hhead
    simp only [system, step, hp] at ht
    cases ht
    have hoff : (printByte 0x08 s.console).y = -1 := printBackspace_top hx hy
    have := hon.y_nonneg
    rw [hoff] at this
    exact absurd this (by decide)
  · exact ((Ready.reachable hs).step ha ht).toOnScreen

def zeroed : State := ⟨initConsole { buffer := fun _ => 0 }, none⟩

lemma zeroed_start : system.start zeroed := ⟨rfl, _, rfl⟩

/-- A call of `PrintString` and what it prints up to its last character. -/
def printed (string : List (BitVec 8)) : List Action :=
  .printString string :: List.replicate string.length .advance

/-- A step that is no backspace in the first cell. -/
def stepBelowTop (s : State) (a : Action) : Option State :=
  if BackspaceAtTop s a then none else step s a

lemma stepBelowTop_spec (s : State) (a : Action) (t : State) (ht : stepBelowTop s a = some t) :
    ¬BackspaceAtTop s a ∧ system.step s a t := by
  unfold stepBelowTop at ht
  split_ifs at ht with ha
  exact ⟨ha, ht⟩

/-- A letter, a newline and a backspace that climbs back behind the letter. -/
theorem cursor_on_screen_iff_climb : ∃ s, belowTop.Reachable s ∧ s.console.x = 1 ∧
    s.console.y = 0 ∧ s.console.OnScreen := by
  have hstart : belowTop.Reachable zeroed := .start zeroed_start
  have hreach := hstart.run stepBelowTop_spec
    (rfl : (printed [0x61, 0x0a, 0x08]).foldlM stepBelowTop zeroed = some _)
  refine ⟨_, hreach, ?_, ?_, (cursor_on_screen_iff hreach).1⟩
  · decide
  · decide

/-- A string that starts with a backspace. -/
theorem backspace_leaves_screen : ∃ s, system.Reachable s ∧ s.console.y = -1 ∧
    s.console.clamped = true ∧ ¬s.console.OnScreen := by
  have hstart : system.Reachable zeroed := .start zeroed_start
  have hreach := hstart.run (fun _ _ _ => id) (rfl : (printed [0x08]).foldlM step zeroed = some _)
  refine ⟨_, hreach, ?_, ?_, ?_⟩
  · decide
  · decide
  · intro h
    exact absurd h.y_nonneg (by decide)

end TextConsole

end Anarch
