import Anarch.ApiTypes
import Anarch.TextConsole
import Mathlib.Data.List.Induction
import Mathlib.Data.Nat.Digits.Lemmas

/-! Output streams: the number that `operator<<` writes into a buffer on the stack, and the
streams of the console. -/
namespace Anarch

/-- An `OutStream`; its virtual `Puts` gets a string without the NUL that ends it. -/
structure OutStream (σ : Type) where
  puts : List (BitVec 8) → σ → σ

namespace OutStream

/-- `"0123456789abcdef"`. -/
def chars : List (BitVec 8) :=
  [0x30, 0x31, 0x32, 0x33, 0x34, 0x35, 0x36, 0x37, 0x38, 0x39, 0x61, 0x62, 0x63, 0x64, 0x65, 0x66]

/-- A write to an array on the stack: `none` outside of it. -/
def store (buf : List (BitVec 8)) (i : ℕ) (c : BitVec 8) : Option (List (BitVec 8)) :=
  if i < buf.length then some (buf.set i c) else none

/-- The loop over the digits, with the rounds it may still take; `buf` is `_buf + 2`. -/
def putDigits : ℕ → Word → ℕ → List (BitVec 8) → Option (ℕ × List (BitVec 8))
  | 0, _, _, _ => none
  | n + 1, number, len, buf => do
      let nextDig := number &&& 0xf
      let c ← chars[nextDig.toNat]?
      let buf ← store buf (2 + len) c
      let number := number >>> 4
      if number > 0 then putDigits n number (len + 1) buf else return (len + 1, buf)

/-- One round of the loop that reverses the first `len` bytes behind the prefix. -/
def swap (len : ℕ) (buf : List (BitVec 8)) (i : ℕ) : Option (List (BitVec 8)) := do
  let a ← buf[2 + (len - i - 1)]?
  let b ← buf[2 + i]?
  let buf ← store buf (2 + (len - i - 1)) b
  store buf (2 + i) a

def reverse (len : ℕ) (buf : List (BitVec 8)) : Option (List (BitVec 8)) :=
  (List.range (len / 2)).foldlM (swap len) buf

/-- The string that starts an array, if there is a NUL in it. -/
def cString (buf : List (BitVec 8)) : Option (List (BitVec 8)) :=
  if 0 ∈ buf then some (buf.takeWhile (· ≠ 0)) else none

section
variable {σ : Type} (stream : OutStream σ)

/-- `operator<<` of a number; a 64-bit number has no more than 16 digits. -/
def putNumber (number : Word) (s : σ) : Option σ := do
  let buf := 0x30 :: 0x78 :: List.replicate 30 0
  let (len, buf) ← putDigits 16 number 2 buf
  let buf ← reverse len buf
  return stream.puts (← cString buf) s

/-- `operator<<` of the narrower unsigned types. -/
def putNarrow {w : ℕ} (num : BitVec w) (s : σ) : Option σ := stream.putNumber (num.setWidth 64) s

end

/-- `ConsoleOutStream`, the stream `cout`. -/
def cout : OutStream TextConsole where
  puts string c := TextConsole.printString string (TextConsole.setColor .lightGray true c)

/-- `ConsoleErrorStream`, the stream `cerr`. -/
def cerr : OutStream TextConsole where
  puts string c := TextConsole.printString string (TextConsole.setColor .red true c)

/-- The digits of a number, the least significant first; 0 has one. -/
def lowDigits (n : ℕ) : List ℕ := if n = 0 then [0] else Nat.digits 16 n

def hexChar (d : ℕ) : BitVec 8 := chars.getD d 0

/-- The number in hexadecimal, with its prefix. -/
def hexText (n : ℕ) : List (BitVec 8) := 0x30 :: 0x78 :: (lowDigits n).reverse.map hexChar

/-- Reads the lower-case digits that follow a number. -/
def readDigits (n : ℕ) (text : List (BitVec 8)) : Option ℕ :=
  text.foldlM (fun n c => (chars.idxOf? c).map (16 * n + ·)) n

/-- Reads a prefix and at least one digit. -/
def readHex : List (BitVec 8) → Option ℕ
  | 0x30 :: 0x78 :: text => if text = [] then none else readDigits 0 text
  | _ => none

example : OutStream.putNumber ⟨fun text out => out ++ [text]⟩ 0x20 [] =
    some [[0x30, 0x78, 0x32, 0x30]] := by decide

lemma lowDigits_succ {n : ℕ} (h : 16 ≤ n) : lowDigits n = n % 16 :: lowDigits (n / 16) := by
  rw [lowDigits, lowDigits, if_neg (by omega), if_neg (by omega),
    Nat.digits_def' (by decide) (by omega)]

lemma lowDigits_small {n : ℕ} (h : n < 16) : lowDigits n = [n] := by
  rw [lowDigits]
  split_ifs with hzero
  · rw [hzero]
  · exact Nat.digits_of_lt 16 n hzero h

lemma lowDigits_ne_nil (n : ℕ) : lowDigits n ≠ [] := by
  rw [lowDigits]
  split_ifs with hzero
  · exact List.cons_ne_nil _ _
  · exact Nat.digits_ne_nil_iff_ne_zero.mpr hzero

lemma lowDigits_lt {n d : ℕ} (h : d ∈ lowDigits n) : d < 16 := by
  rw [lowDigits] at h
  split_ifs at h
  · rw [List.mem_singleton.mp h]
    decide
  · exact Nat.digits_lt_base (by decide) h

lemma ofDigits_lowDigits (n : ℕ) : Nat.ofDigits 16 (lowDigits n) = n := by
  rw [lowDigits]
  split_ifs with hzero
  · rw [hzero, Nat.ofDigits_singleton]
  · exact Nat.ofDigits_digits 16 n

lemma length_lowDigits_le {n k : ℕ} (hk : 0 < k) (h : n < 16 ^ k) : (lowDigits n).length ≤ k := by
  rw [lowDigits]
  split_ifs
  · exact hk
  · exact (Nat.digits_length_le_iff (by decide) n).mpr h

lemma chars_getElem? {d : ℕ} (h : d < 16) : chars[d]? = some (hexChar d) :=
  (by decide : ∀ d < 16, chars[d]? = some (hexChar d)) d h

lemma idxOf?_hexChar {d : ℕ} (h : d < 16) : chars.idxOf? (hexChar d) = some d :=
  (by decide : ∀ d < 16, chars.idxOf? (hexChar d) = some d) d h

lemma hexChar_ne_zero {d : ℕ} (h : d < 16) : hexChar d ≠ 0 :=
  (by decide : ∀ d < 16, hexChar d ≠ 0) d h

lemma idxOf?_lt {c : BitVec 8} {d : ℕ} (h : chars.idxOf? c = some d) : d < 16 :=
  (List.idxOf?_eq_some_iff.mp h).1

section
variable {pre post mid : List (BitVec 8)} {x y c : BitVec 8} {len i n k : ℕ} {number : Word}

lemma load_at (hi : pre.length = i) : (pre ++ x :: post)[i]? = some x := by
  subst hi
  simp

lemma store_at (hi : pre.length = i) : store (pre ++ x :: post) i c = some (pre ++ c :: post) := by
  subst hi
  simp [store]

lemma toNat_shift (number : Word) : (number >>> 4).toNat = number.toNat / 16 := by
  rw [BitVec.toNat_ushiftRight, Nat.shiftRight_eq_div_pow]

lemma putDigits_succ (hlen : pre.length = 2 + len) :
    putDigits (n + 1) number len (pre ++ x :: post) =
      if number.toNat < 16 then some (len + 1, pre ++ hexChar (number.toNat % 16) :: post)
      else putDigits n (number >>> 4) (len + 1) (pre ++ hexChar (number.toNat % 16) :: post) := by
  have hdigit : (number &&& 0xf).toNat = number.toNat % 16 := by
    rw [BitVec.toNat_and]
    exact Nat.and_two_pow_sub_one_eq_mod _ 4
  have hmore : number >>> 4 > 0 ↔ ¬ number.toNat < 16 := by
    rw [gt_iff_lt, BitVec.lt_def, toNat_shift]
    show 0 < _ ↔ _
    omega
  simp only [putDigits, hdigit, chars_getElem? (Nat.mod_lt _ (by decide)), store_at hlen, hmore,
    Option.bind_eq_bind, Option.bind_some, Option.pure_def, ite_not]

lemma putDigits_eq (hnum : number.toNat < 16 ^ (n + 1)) (hk : n < k)
    (hlen : pre.length = 2 + len) :
    putDigits (n + 1) number len (pre ++ List.replicate k 0) =
      some (len + (lowDigits number.toNat).length,
        pre ++ ((lowDigits number.toNat).map hexChar ++
          List.replicate (k - (lowDigits number.toNat).length) 0)) := by
  induction n generalizing number len k pre with
  | zero =>
    obtain ⟨k, rfl⟩ := Nat.exists_eq_succ_of_ne_zero hk.ne'
    have hsmall : number.toNat < 16 := hnum
    rw [List.replicate_succ, putDigits_succ hlen, if_pos hsmall, Nat.mod_eq_of_lt hsmall,
      lowDigits_small hsmall]
    rfl
  | succ n ih =>
    obtain ⟨k, rfl⟩ := Nat.exists_eq_succ_of_ne_zero (Nat.ne_zero_of_lt hk)
    rw [List.replicate_succ, putDigits_succ hlen]
    split_ifs with hsmall
    · rw [Nat.mod_eq_of_lt hsmall, lowDigits_small hsmall]
      rfl
    · rw [lowDigits_succ (not_lt.mp hsmall), List.map_cons, List.length_cons]
      have hlen' : (pre ++ [hexChar (number.toNat % 16)]).length = 2 + (len + 1) := by
        rw [List.length_append, hlen]
        rfl
      have hnum' : (number >>> 4).toNat < 16 ^ (n + 1) := by
        rw [toNat_shift]
        omega
      have hrest := ih hnum' (Nat.lt_of_succ_lt_succ hk) hlen'
      rw [toNat_shift, List.append_assoc, List.append_assoc, Nat.add_assoc len 1,
        Nat.add_comm 1] at hrest
      rw [Nat.succ_sub_succ]
      exact hrest

lemma swap_ends (hi : pre.length = 2 + i) (hlen : len = 2 * i + mid.length + 2) :
    swap len (pre ++ x :: (mid ++ y :: post)) i = some (pre ++ y :: (mid ++ x :: post)) := by
  have hlast : (pre ++ x :: mid).length = 2 + (len - i - 1) := by
    rw [List.length_append, List.length_cons]
    omega
  have hsplit : ∀ z w, pre ++ z :: (mid ++ w :: post) = (pre ++ z :: mid) ++ w :: post := by simp
  have hy : (pre ++ x :: (mid ++ y :: post))[2 + (len - i - 1)]? = some y := by
    rw [hsplit, load_at hlast]
  have hstore : store (pre ++ x :: (mid ++ y :: post)) (2 + (len - i - 1)) x =
      some (pre ++ x :: (mid ++ x :: post)) := by
    rw [hsplit, store_at hlast, hsplit]
  simp only [swap, hy, load_at hi, hstore, store_at hi, Option.bind_eq_bind, Option.bind_some]

/-- The loop reverses the bytes between what it has already exchanged. -/
lemma foldlM_swap (hi : pre.length = 2 + i) (hlen : len = 2 * i + mid.length) :
    (List.range' i (mid.length / 2)).foldlM (swap len) (pre ++ (mid ++ post)) =
      some (pre ++ (mid.reverse ++ post)) := by
  induction mid using List.bidirectionalRec generalizing pre post i with
  | nil => rfl
  | singleton x => rw [List.length_singleton]; rfl
  | cons_append x mid y ih =>
    have hhalf : (x :: (mid ++ [y])).length / 2 = mid.length / 2 + 1 := by
      rw [List.length_cons, List.length_append, List.length_singleton]
      omega
    have hlen' : len = 2 * i + mid.length + 2 := by
      rw [hlen, List.length_cons, List.length_append, List.length_singleton]
      omega
    have hi' : (pre ++ [y]).length = 2 + (i + 1) := by
      rw [List.length_append, hi]
      rfl
    have hrest : (List.range' (i + 1) (mid.length / 2)).foldlM (swap len)
        (pre ++ [y] ++ (mid ++ x :: post)) = some (pre ++ [y] ++ (mid.reverse ++ x :: post)) :=
      ih hi' (by omega)
    rw [List.append_assoc, List.append_assoc] at hrest
    have hends : pre ++ (x :: (mid ++ [y]) ++ post) = pre ++ x :: (mid ++ y :: post) := by simp
    rw [hhalf, List.range'_succ, List.foldlM_cons, hends, swap_ends hi hlen']
    refine hrest.trans ?_
    simp

lemma cString_at {text : List (BitVec 8)} (h : ∀ c ∈ text, c ≠ 0) :
    cString (text ++ 0 :: post) = some text := by
  have hnul : ∀ c ∈ text, decide (c ≠ 0) = true := fun c hc => decide_eq_true (h c hc)
  rw [cString, if_pos (by simp), List.takeWhile_append_of_pos hnul,
    List.takeWhile_cons_of_neg (by simp), List.append_nil]

lemma hexText_ne_zero (n : ℕ) : ∀ c ∈ hexText n, c ≠ 0 := by
  intro c hc
  rcases List.mem_cons.mp hc with rfl | hc
  · decide
  rcases List.mem_cons.mp hc with rfl | hc
  · decide
  obtain ⟨d, hd, rfl⟩ := List.mem_map.mp hc
  exact hexChar_ne_zero (lowDigits_lt (List.mem_reverse.mp hd))

end

/-- The digits in the buffer, put in order, and the two zeros before them are the string. -/
theorem putNumber_eq {σ : Type} (stream : OutStream σ) (number : Word) (s : σ) :
    stream.putNumber number s = some (stream.puts (hexText number.toNat) s) := by
  set ds := lowDigits number.toNat with hds
  have hle : ds.length ≤ 16 := length_lowDigits_le (by decide) number.isLt
  have hzeros : ([0x30, 0x78, 0, 0] : List (BitVec 8)).length = 2 + 2 := rfl
  have hput : putDigits 16 number 2 (0x30 :: 0x78 :: List.replicate 30 0) =
      some (2 + ds.length, 0x30 :: 0x78 :: (0 :: 0 :: ds.map hexChar ++
        List.replicate (28 - ds.length) 0)) :=
    putDigits_eq number.isLt (by decide : 15 < 28) hzeros
  have hlen : (0 :: 0 :: ds.map hexChar).length = 2 + ds.length := by
    rw [List.length_cons, List.length_cons, List.length_map]
    omega
  have htext : 0x30 :: 0x78 :: ((0 :: 0 :: ds.map hexChar).reverse ++
      List.replicate (28 - ds.length) 0) =
      hexText number.toNat ++ 0 :: 0 :: List.replicate (28 - ds.length) 0 := by
    simp [hexText, hds]
  have hrev : reverse (2 + ds.length) (0x30 :: 0x78 :: (0 :: 0 :: ds.map hexChar ++
      List.replicate (28 - ds.length) 0)) =
      some (hexText number.toNat ++ 0 :: 0 :: List.replicate (28 - ds.length) 0) := by
    rw [reverse, List.range_eq_range', ← hlen, ← htext]
    have hstart : ([0x30, 0x78] : List (BitVec 8)).length = 2 + 0 := rfl
    exact foldlM_swap hstart (Nat.zero_add _).symm
  simp only [putNumber, hput, hrev, cString_at (hexText_ne_zero _), Option.bind_eq_bind,
    Option.bind_some]
  rfl

lemma readDigits_reverse {ds : List ℕ} (h : ∀ d ∈ ds, d < 16) (n : ℕ) :
    readDigits n (ds.reverse.map hexChar) = some (16 ^ ds.length * n + Nat.ofDigits 16 ds) := by
  induction ds with
  | nil => simp [readDigits]
  | cons d ds ih =>
    have hrest := ih fun d hd => h d (List.mem_cons_of_mem _ hd)
    rw [readDigits] at hrest ⊢
    rw [List.reverse_cons, List.map_append, List.foldlM_append, hrest]
    simp only [List.map_cons, List.map_nil, List.foldlM_cons, List.foldlM_nil,
      idxOf?_hexChar (h d List.mem_cons_self), Nat.ofDigits_cons, List.length_cons,
      Option.bind_eq_bind, Option.bind_some, Option.map_some, Option.pure_def, Option.some.injEq]
    ring

lemma readDigits_lt {n m : ℕ} {text : List (BitVec 8)} (h : readDigits n text = some m) :
    m < 16 ^ text.length * (n + 1) := by
  induction text generalizing n with
  | nil =>
    obtain rfl := Option.some.inj h
    simp
  | cons c text ih =>
    rw [readDigits, List.foldlM_cons, Option.bind_eq_bind] at h
    obtain ⟨k, hk, hrest⟩ := Option.bind_eq_some_iff.mp h
    obtain ⟨d, hd, rfl⟩ := Option.map_eq_some_iff.mp hk
    have hlt := idxOf?_lt hd
    calc m < 16 ^ text.length * (16 * n + d + 1) := ih hrest
      _ ≤ 16 ^ text.length * (16 * (n + 1)) := by gcongr; omega
      _ = 16 ^ (c :: text).length * (n + 1) := by rw [List.length_cons]; ring

lemma readHex_hexText (n : ℕ) : readHex (hexText n) = some n := by
  have hread := readDigits_reverse (fun _ => lowDigits_lt (n := n)) 0
  rw [Nat.mul_zero, Nat.zero_add, ofDigits_lowDigits] at hread
  have hne : (lowDigits n).reverse.map hexChar ≠ [] := by simp [lowDigits_ne_nil]
  exact (if_neg hne).trans hread

lemma length_hexText_le {n : ℕ} {text : List (BitVec 8)} (h : readHex text = some n) :
    (hexText n).length ≤ text.length := by
  unfold readHex at h
  split at h
  · rename_i digits
    split_ifs at h with hnil
    have hlt := readDigits_lt h
    rw [Nat.zero_add, Nat.mul_one] at hlt
    have hle := length_lowDigits_le (List.length_pos_iff.mpr hnil) hlt
    simpa [hexText] using hle
  · cases h

lemma hexText_leading {n : ℕ} (h : n ≠ 0) : (hexText n)[2]? ≠ some 0x30 := by
  intro hzero
  have hhead : (lowDigits n).reverse.head?.map hexChar = some 0x30 := by
    rw [← List.head?_map, List.head?_eq_getElem?]
    exact hzero
  obtain ⟨d, hd, hchar⟩ := Option.map_eq_some_iff.mp hhead
  have hlast : (Nat.digits 16 n).getLast? = some d := by
    rw [← hd, List.head?_reverse, lowDigits, if_neg h]
  have hdzero : d = 0 := by
    have hmem : d ∈ lowDigits n := List.mem_reverse.mp (List.mem_of_head? hd)
    have hidx := idxOf?_hexChar (lowDigits_lt hmem)
    rw [hchar] at hidx
    exact (Option.some.inj hidx).symm
  rw [List.getLast?_eq_some_getLast (Nat.digits_ne_nil_iff_ne_zero.mpr h), hdzero] at hlast
  exact Nat.getLast_digit_ne_zero 16 h (Option.some.inj hlast)

/-- `operator<<` calls `Puts` once, with the shortest lower-case hexadecimal string of the
number, and stays inside its buffer. -/
theorem putNumber_canonical {σ : Type} (stream : OutStream σ) (number : Word) (s : σ) :
    stream.putNumber number s = some (stream.puts (hexText number.toNat) s) ∧
    readHex (hexText number.toNat) = some number.toNat ∧
    (number ≠ 0 → (hexText number.toNat)[2]? ≠ some 0x30) ∧
    ∀ text, readHex text = some number.toNat → (hexText number.toNat).length ≤ text.length :=
  ⟨putNumber_eq stream number s, readHex_hexText _,
    fun h => hexText_leading fun hzero => h (BitVec.eq_of_toNat_eq hzero), fun _ => length_hexText_le⟩

end OutStream

end Anarch
