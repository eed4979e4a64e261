import Anarch.Lapic

/-! The two drivers of the local APIC agree on every sequence of calls, and when a CPU gets the one
that its APIC can be driven with. -/
namespace Anarch.Lapic

/-- Both computations return, with related results. -/
def Both {α β : Type} (P : α → β → Prop) (r : Except Stop α) (r' : Except Stop β) : Prop :=
  ∃ a b, r = .ok a ∧ r' = .ok b ∧ P a b

section
variable {α β γ δ : Type} {P : α → β → Prop} {Q : γ → δ → Prop}

lemma Both.pure {a : α} {b : β} (h : P a b) : Both P (Pure.pure a) (Pure.pure b) :=
  ⟨a, b, rfl, rfl, h⟩

lemma Both.bind {r : Except Stop α} {r' : Except Stop β} {f : α → Except Stop γ}
    {g : β → Except Stop δ} (h : Both P r r') (hnext : ∀ a b, P a b → Both Q (f a) (g b)) :
    Both Q (r >>= f) (r' >>= g) := by
  obtain ⟨a, b, rfl, rfl, hab⟩ := h
  exact hnext a b hab

end

/-- An xAPIC reaches only the low byte of a destination. -/
def Ipi.reached (i : Ipi) : Ipi := { i with dest := i.dest &&& 0xff }

/-- An xAPIC and an x2APIC in the same state, apart from the high word of the command register,
that were asked to send these interrupts. -/
structure Corresponds (sent : List Ipi) (x y : Device) : Prop where
  xapic : (x.enabled && !x.extended) = true
  x2apic : (y.enabled && y.extended) = true
  id : x.id = y.id
  small : x.id < 0x100
  regs : x.regs = y.regs
  irr : x.irr = y.irr
  isr : x.isr = y.isr
  xapicSent : x.ipis = sent.map Ipi.reached
  x2apicSent : y.ipis = sent

section
variable (base : PhysAddr)

@[simp] lemma XApic.driver_writeReg : (XApic.driver base).writeReg = XApic.writeReg := by
  simp only [XApic.driver]

@[simp] lemma XApic.driver_readReg : (XApic.driver base).readReg = XApic.readReg := by
  simp only [XApic.driver]

@[simp] lemma X2Apic.driver_writeReg : X2Apic.driver.writeReg = X2Apic.writeReg := by
  simp only [X2Apic.driver]

@[simp] lemma X2Apic.driver_readReg : X2Apic.driver.readReg = X2Apic.readReg := by
  simp only [X2Apic.driver]

end

/-- A register that both drivers access as one word. -/
def Plain (reg : BitVec 16) : Prop := reg < 0x100 ∧ reg ≠ regIcr ∧ reg ≠ regIcr + 1

instance (reg : BitVec 16) : Decidable (Plain reg) := inferInstanceAs (Decidable (_ ∧ _ ∧ _))

/-- A register that both drivers read the same from. -/
def Reads (reg : BitVec 16) : Prop :=
  Plain reg ∧ reg ≠ regApicId ∧ Device.readable reg = true

instance (reg : BitVec 16) : Decidable (Reads reg) := inferInstanceAs (Decidable (_ ∧ _ ∧ _))

section
variable {sent : List Ipi} {x y d : Device} {reg : BitVec 16} {value : Word}

lemma offset_shift (reg : BitVec 16) : (XApic.offset reg >>> 4).setWidth 16 = reg := by
  have hlt := reg.isLt
  apply BitVec.eq_of_toNat_eq
  simp only [XApic.offset, BitVec.toNat_setWidth, BitVec.toNat_ushiftRight, BitVec.toNat_mul,
    Nat.shiftRight_eq_div_pow]
  simp
  omega

lemma cell_register (h : reg < 0x100) :
    (reg.setWidth 32 + 0x800 - 0x800 : BitVec 32).setWidth 16 = reg ∧
      (0x800 : BitVec 32) ≤ reg.setWidth 32 + 0x800 ∧ reg.setWidth 32 + 0x800 < (0x900 : BitVec 32) ∧
      reg.setWidth 32 + 0x800 ≠ (0x1b : BitVec 32) := by
  rw [BitVec.lt_def] at h
  refine ⟨?_, ?_, ?_, fun heq => ?_⟩
  · rw [BitVec.add_sub_cancel, BitVec.setWidth_setWidth_of_le _ (by omega), BitVec.setWidth_eq]
  · rw [BitVec.le_def]
    simp at h ⊢
    omega
  · rw [BitVec.lt_def]
    simp at h ⊢
    omega
  · have := congrArg BitVec.toNat heq
    simp at h this
    omega

/-- A value that fits into a register. -/
def Fits (value : Word) : Prop := value >>> 32 = 0

instance (value : Word) : Decidable (Fits value) := inferInstanceAs (Decidable (_ = _))

/-- A value that both drivers write to a register: one word with no reserved bits. -/
def Writes (reg : BitVec 16) (value : Word) : Prop :=
  Plain reg ∧ Fits value ∧ Device.takes reg (value.setWidth 32) = true

instance (reg : BitVec 16) (value : Word) : Decidable (Writes reg value) :=
  inferInstanceAs (Decidable (_ ∧ _ ∧ _))

lemma fits_setWidth {n : ℕ} (hn : n ≤ 32) (w : BitVec n) : Fits (w.setWidth 64) := by
  have hlt := w.isLt
  have hpow : (2 : ℕ) ^ n ≤ 2 ^ 32 := Nat.pow_le_pow_right (by decide) hn
  apply BitVec.eq_of_toNat_eq
  simp only [BitVec.toNat_ushiftRight, BitVec.toNat_setWidth, Nat.shiftRight_eq_div_pow]
  rw [Nat.mod_eq_of_lt (by omega)]
  exact Nat.div_eq_of_lt (hlt.trans_le hpow)

lemma Fits.high (h : Fits value) : value &&& 0xFFFFFFFF00000000 = 0 := by
  rw [show (0xFFFFFFFF00000000 : Word) = (0xFFFFFFFF : Word) <<< 32 from rfl]
  apply BitVec.eq_of_getLsbD_eq
  intro i hi
  rw [BitVec.getLsbD_and, BitVec.getLsbD_shiftLeft]
  by_cases hlow : i < 32
  · simp only [hlow, decide_true, Bool.not_true, Bool.and_false, Bool.false_and]
    exact BitVec.getLsbD_zero.symm
  · have hbit := congrArg (BitVec.getLsbD · (i - 32)) h
    rw [BitVec.getLsbD_ushiftRight, Nat.add_sub_cancel' (Nat.le_of_not_lt hlow)] at hbit
    simp [hbit]

lemma Fits.high_word (h : Fits value) : (value >>> 0x20).setWidth 32 = 0#32 := by
  rw [show value >>> 0x20 = 0 from h]
  rfl

lemma low_word (value : Word) : (value &&& 0xffffffff).setWidth 32 = value.setWidth 32 := by
  apply BitVec.eq_of_toNat_eq
  rw [BitVec.toNat_setWidth, BitVec.toNat_setWidth, BitVec.toNat_and,
    show (0xffffffff : Word).toNat = 2 ^ 32 - 1 from rfl, Nat.and_two_pow_sub_one_eq_mod,
    Nat.mod_mod]

lemma xapic_store (hd : (d.enabled && !d.extended) = true) (hreg : Plain reg) (v : BitVec 32) :
    d.store (XApic.offset reg) v = .ok (d.write reg v) := by
  simp only [Device.store, hd, if_true, offset_shift, if_neg hreg.2.1, if_neg hreg.2.2]

lemma xapic_writeReg (hd : (d.enabled && !d.extended) = true) (h : Writes reg value) :
    XApic.writeReg reg value d = .ok (d.write reg (value.setWidth 32)) := by
  rw [XApic.writeReg, if_pos h.1.2.1, if_pos h.2.1.high, xapic_store hd h.1]

lemma xapic_readReg (hd : (d.enabled && !d.extended) = true) (h : Reads reg) :
    XApic.readReg reg d = .ok ((d.read reg).setWidth 64) := by
  simp only [XApic.readReg, ne_eq, h.1.2.1, not_false_eq_true, if_true, Device.load, hd,
    offset_shift, if_neg h.2.1, if_neg h.1.2.2]
  rfl

lemma x2apic_writeReg (hd : (d.enabled && d.extended) = true) (h : Writes reg value) :
    X2Apic.writeReg reg value d = .ok (d.write reg (value.setWidth 32)) := by
  obtain ⟨hindex, hlow, hhigh, hbase⟩ := cell_register h.1.1
  simp only [X2Apic.writeReg, writeMsr, Device.wrmsr, if_neg hbase, hd, hlow, hhigh, decide_true,
    Bool.and_self, if_true, hindex, if_neg h.1.2.1, h.2.1.high_word, low_word, h.2.2]
  rfl

lemma x2apic_readReg (hd : (d.enabled && d.extended) = true) (hreg : Plain reg)
    (hread : Device.readable reg = true) :
    X2Apic.readReg reg d = .ok ((d.read reg).setWidth 64) := by
  obtain ⟨hindex, hlow, hhigh, hbase⟩ := cell_register hreg.1
  simp only [X2Apic.readReg, readMsr, Device.rdmsr, if_neg hbase, hd, hlow, hhigh, decide_true,
    Bool.and_self, if_true, hindex, hread, if_neg hreg.2.1]
  simp [bind, Except.bind, pure, Except.pure]

lemma Corresponds.write (h : Corresponds sent x y) (reg : BitVec 16) (v : BitVec 32) :
    Corresponds sent (x.write reg v) (y.write reg v) := by
  obtain ⟨hx, hy, hid, hsmall, hregs, hirr, hisr, hxsent, hysent⟩ := h
  unfold Device.write
  split_ifs
  · exact ⟨hx, hy, hid, hsmall, hregs, hirr, congrArg Device.endOfInterrupt hisr, hxsent, hysent⟩
  · exact ⟨hx, hy, hid, hsmall, by rw [hregs], hirr, hisr, hxsent, hysent⟩
  · exact ⟨hx, hy, hid, hsmall, by rw [hregs], hirr, hisr, hxsent, hysent⟩

lemma Corresponds.read (h : Corresponds sent x y) (reg : BitVec 16) : x.read reg = y.read reg := by
  simp only [Device.read, h.id, h.regs, h.irr, h.isr]

lemma Corresponds.writes (h : Corresponds sent x y) (base : PhysAddr)
    (hwrites : Writes reg value) :
    Both (Corresponds sent) ((XApic.driver base).writeReg reg value x)
      (X2Apic.driver.writeReg reg value y) := by
  rw [XApic.driver_writeReg, X2Apic.driver_writeReg, xapic_writeReg h.xapic hwrites,
    x2apic_writeReg h.x2apic hwrites]
  exact .pure (h.write reg _)

lemma Corresponds.reads (h : Corresponds sent x y) (base : PhysAddr) (hreads : Reads reg) :
    Both Eq ((XApic.driver base).readReg reg x) (X2Apic.driver.readReg reg y) := by
  rw [XApic.driver_readReg, X2Apic.driver_readReg, xapic_readReg h.xapic hreads,
    x2apic_readReg h.x2apic hreads.1 hreads.2.2, h.read]
  exact .pure rfl

/-- The low word of the command register. -/
def command (vector mode level trigger : BitVec 8) : BitVec 32 :=
  vector.setWidth 32 ||| mode.setWidth 32 <<< 8 |||
    (level.setWidth 32 <<< 0xe ||| trigger.setWidth 32 <<< 0xf)

/-- The value that `SendIpi` writes, with the destination from a bit on. -/
def icr (k : ℕ) (cpu : BitVec 32) (vector mode level trigger : BitVec 8) : Word :=
  vector.setWidth 64 ||| mode.setWidth 64 <<< 8 |||
    (level.setWidth 64 <<< 0xe ||| trigger.setWidth 64 <<< 0xf) ||| cpu.setWidth 64 <<< k

section
variable {k : ℕ} (cpu : BitVec 32) (vector mode level trigger : BitVec 8)

lemma icr_low (hk : 32 ≤ k) : (icr k cpu vector mode level trigger).setWidth 32 =
    command vector mode level trigger := by
  apply BitVec.eq_of_getLsbD_eq
  intro i hi
  have hlow : i < k := by omega
  simp [icr, command, hi, hlow]

lemma icr_high (hk : 32 ≤ k) {i : ℕ} (hi : i < 32) : (icr k cpu vector mode level trigger).getLsbD (32 + i) =
    (decide (k ≤ 32 + i) && cpu.getLsbD (32 + i - k)) := by
  have hout : ∀ (b : BitVec 8) (j : ℕ), 8 ≤ j → b.getLsbD j = false := fun b j =>
    BitVec.getLsbD_of_ge b j
  simp only [icr, BitVec.getLsbD_or, BitVec.getLsbD_shiftLeft, BitVec.getLsbD_setWidth]
  rw [hout vector _ (by omega), hout mode _ (by omega), hout level _ (by omega),
    hout trigger _ (by omega)]
  by_cases hle : k ≤ 32 + i
  · have hin : 32 + i - k < 64 := by omega
    simp [hle, Nat.not_lt.mpr hle, hin, show 32 + i < 64 by omega]
  · simp [hle, Nat.lt_of_not_le hle]

lemma icr_high_x2apic :
    (icr 0x20 cpu vector mode level trigger >>> 0x20).setWidth 32 = cpu := by
  apply BitVec.eq_of_getLsbD_eq
  intro i hi
  rw [BitVec.getLsbD_setWidth, BitVec.getLsbD_ushiftRight, icr_high _ _ _ _ _ le_rfl hi]
  simp [hi]

lemma icr_high_xapic :
    (icr 0x38 cpu vector mode level trigger >>> 0x20).setWidth 32 >>> 24 = cpu &&& 0xff := by
  have hmask : cpu &&& 0xff = (cpu.setWidth 8).setWidth 32 := by
    apply BitVec.eq_of_toNat_eq
    rw [BitVec.toNat_and, show (0xff : BitVec 32).toNat = 2 ^ 8 - 1 from rfl,
      Nat.and_two_pow_sub_one_eq_mod, BitVec.toNat_setWidth, BitVec.toNat_setWidth]
    omega
  rw [hmask]
  apply BitVec.eq_of_getLsbD_eq
  intro i hi
  rw [BitVec.getLsbD_ushiftRight, BitVec.getLsbD_setWidth, BitVec.getLsbD_ushiftRight]
  by_cases hlow : i < 8
  · rw [icr_high _ _ _ _ _ (by decide) (show 24 + i < 32 by omega),
      show 32 + (24 + i) - 0x38 = i by omega]
    simp [hi, hlow, show 24 + i < 32 by omega, show 56 ≤ 32 + (24 + i) by omega]
  · simp [hlow, show ¬ 24 + i < 32 by omega]

end

/-- Both drivers send what they are asked to, the xAPIC's to the low byte of the destination. -/
lemma Corresponds.sends (h : Corresponds sent x y) (cpu : BitVec 32)
    (vector mode level trigger : BitVec 8)
    (htakes : Device.takes regIcr (command vector mode level trigger) = true) :
    Both (Corresponds (⟨cpu, command vector mode level trigger⟩ :: sent))
      (XApic.sendIpi cpu vector mode level trigger x)
      (X2Apic.sendIpi cpu vector mode level trigger y) := by
  obtain ⟨hx, hy, hid, hsmall, hregs, hirr, hisr, hxsent, hysent⟩ := h
  have hhigh : ((XApic.offset (regIcr + 1)) >>> 4).setWidth 16 = regIcr + 1 := offset_shift _
  have hlow : ((XApic.offset regIcr) >>> 4).setWidth 16 = regIcr := offset_shift _
  have hxapic : XApic.sendIpi cpu vector mode level trigger x =
      .ok (({ x with icrHigh := (icr 0x38 cpu vector mode level trigger >>> 0x20).setWidth 32 }).send
        (cpu &&& 0xff) (command vector mode level trigger)) := by
    change XApic.writeReg regIcr (icr 0x38 cpu vector mode level trigger) x = _
    have hne : ¬ regIcr + 1 = regIcr := by decide
    simp only [XApic.writeReg, ne_eq, not_true_eq_false, if_false, Device.store, hx, if_true,
      hhigh, hlow, hne, bind, Except.bind]
    rw [icr_high_xapic, low_word, icr_low _ _ _ _ _ (by decide)]
    exact if_pos hx
  have hx2apic : X2Apic.sendIpi cpu vector mode level trigger y =
      .ok (({ y with icrHigh := cpu }).send cpu (command vector mode level trigger)) := by
    change X2Apic.writeReg regIcr (icr 0x20 cpu vector mode level trigger) y = _
    obtain ⟨hindex, hfrom, hto, hbase⟩ := cell_register (by decide : regIcr < 0x100)
    simp only [X2Apic.writeReg, writeMsr, Device.wrmsr, if_neg hbase, hy, hfrom, hto, decide_true,
      Bool.and_self, if_true, hindex, icr_high_x2apic, low_word,
      icr_low cpu vector mode level trigger le_rfl, htakes]
    rfl
  refine ⟨_, _, hxapic, hx2apic, hx, hy, hid, hsmall, ?_, hirr, hisr, ?_, ?_⟩
  · simp [Device.send, hregs]
  · simp [Device.send, hxsent, Ipi.reached]
  · simp [Device.send, hysent]

lemma reads_bits {first : BitVec 16} (hfirst : first = 0x10 ∨ first = 0x20) (vector : BitVec 8) :
    Reads (first + (vector >>> 5).setWidth 16) := by
  have hword : ((vector >>> 5).setWidth 16 : BitVec 16).toNat < 8 := by
    have hlt := vector.isLt
    simp only [BitVec.toNat_setWidth, BitVec.toNat_ushiftRight, Nat.shiftRight_eq_div_pow]
    omega
  generalize (vector >>> 5).setWidth 16 = word at hword
  have hread : ∀ reg : BitVec 16, 0x10 ≤ reg → reg < 0x28 → Device.readable reg = true :=
    fun reg hle hlt => by rw [Device.readable, decide_eq_true hle, decide_eq_true hlt]; rfl
  rcases hfirst with rfl | rfl
  · refine ⟨⟨?_, ?_, ?_⟩, ?_, hread _ ?_ ?_⟩ <;>
      simp [BitVec.lt_def, BitVec.le_def, ← BitVec.toNat_inj, regIcr, regApicId] <;> omega
  · refine ⟨⟨?_, ?_, ?_⟩, ?_, hread _ ?_ ?_⟩ <;>
      simp [BitVec.lt_def, BitVec.le_def, ← BitVec.toNat_inj, regIcr, regApicId] <;> omega

lemma writes_vector {mask : BitVec 32} (hreg : Plain reg)
    (hmask : Device.writable reg = some mask) (hfield : mask &&& 0xff = 0xff)
    (vector : BitVec 8) : Writes reg (vector.setWidth 64) := by
  refine ⟨hreg, fits_setWidth (by decide) vector, ?_⟩
  rw [Device.takes, hmask, Option.any_some, decide_eq_true_eq,
    BitVec.setWidth_setWidth_of_le _ (by decide)]
  have hbyte : ∀ i < 8, (0xff : BitVec 32).getLsbD i = true := by decide
  apply BitVec.eq_of_getLsbD_eq
  intro i hi
  rw [BitVec.getLsbD_and, BitVec.getLsbD_setWidth, BitVec.getLsbD_not]
  refine Eq.trans ?_ BitVec.getLsbD_zero.symm
  by_cases hlow : i < 8
  · have hbit := congrArg (BitVec.getLsbD · i) hfield
    simp only [BitVec.getLsbD_and, hbyte i hlow, Bool.and_true] at hbit
    simp [hbit]
  · simp [BitVec.getLsbD_of_ge vector i (Nat.le_of_not_lt hlow)]

lemma writes_ticks (ticks : BitVec 32) : Writes regTimerInitCount (ticks.setWidth 64) := by
  refine ⟨by decide, fits_setWidth le_rfl ticks, ?_⟩
  have hmask : Device.writable regTimerInitCount = some 0xffffffff := rfl
  rw [Device.takes, hmask, Option.any_some, decide_eq_true_eq]
  simp

lemma Corresponds.hasBit (h : Corresponds sent x y) (base : PhysAddr) {first : BitVec 16}
    (hfirst : first = 0x10 ∨ first = 0x20) (vector : BitVec 8) :
    Both Eq (hasBit (XApic.driver base) first vector x) (hasBit X2Apic.driver first vector y) := by
  refine (h.reads base (reads_bits hfirst vector)).bind ?_
  rintro value _ rfl
  exact .pure rfl

lemma Corresponds.setDefaults (h : Corresponds sent x y) (base : PhysAddr) :
    Both (Corresponds sent) (setDefaults (XApic.driver base) x) (setDefaults X2Apic.driver y) := by
  unfold Lapic.setDefaults
  iterate 9 refine (h.writes base (by decide)).bind fun x y h => ?_
  exact h.writes base (by decide)

lemma Corresponds.setTimeout (h : Corresponds sent x y) (base : PhysAddr) (vector : BitVec 8)
    (ticks : BitVec 32) : Both (Corresponds sent) (setTimeout (XApic.driver base) vector ticks x)
      (setTimeout X2Apic.driver vector ticks y) := by
  have hvector : Writes regLvtTimer (((vector.setWidth 32 : BitVec 32)).setWidth 64) := by
    have hwiden : ((vector.setWidth 32 : BitVec 32).setWidth 64 : Word) = vector.setWidth 64 := by
      have hlt := vector.isLt
      apply BitVec.eq_of_toNat_eq
      simp only [BitVec.toNat_setWidth]
      omega
    rw [hwiden]
    exact writes_vector (by decide) rfl (by decide) vector
  exact (h.writes base hvector).bind fun x y h => h.writes base (writes_ticks ticks)

lemma Corresponds.isTimerRunning (h : Corresponds sent x y) (base : PhysAddr) :
    Both Eq (isTimerRunning (XApic.driver base) x) (isTimerRunning X2Apic.driver y) := by
  unfold Lapic.isTimerRunning
  refine (h.reads base (by decide)).bind ?_
  rintro value _ rfl
  split_ifs
  · exact .pure rfl
  · refine (h.reads base (by decide)).bind ?_
    rintro value _ rfl
    exact .pure rfl

lemma id_shift {id : BitVec 32} (h : id < 0x100) :
    ((id <<< 24).setWidth 64 >>> 0x18).setWidth 32 = id := by
  rw [BitVec.lt_def] at h
  apply BitVec.eq_of_toNat_eq
  simp only [BitVec.toNat_setWidth, BitVec.toNat_ushiftRight, BitVec.toNat_shiftLeft,
    Nat.shiftRight_eq_div_pow, Nat.shiftLeft_eq]
  simp at h
  omega

lemma Corresponds.getId (h : Corresponds sent x y) (base : PhysAddr) :
    Both Eq ((XApic.driver base).getId x) (X2Apic.driver.getId y) := by
  have hx : XApic.readReg regApicId x = .ok ((x.id <<< 24).setWidth 64) := by
    simp only [XApic.readReg, Device.load, h.xapic, offset_shift]
    rfl
  have hy : X2Apic.readReg regApicId y = .ok (y.id.setWidth 64) :=
    x2apic_readReg h.x2apic (by decide) (by decide)
  simp only [XApic.driver, X2Apic.driver, XApic.getId, X2Apic.getId, hx, hy]
  exact .pure (by rw [id_shift h.small, BitVec.setWidth_setWidth_of_le _ (by decide),
    BitVec.setWidth_eq, h.id])

lemma Corresponds.request (h : Corresponds sent x y) (vector : BitVec 8) :
    Corresponds sent (x.request vector) (y.request vector) := by
  obtain ⟨hx, hy, hid, hsmall, hregs, hirr, hisr, hxsent, hysent⟩ := h
  exact ⟨hx, hy, hid, hsmall, hregs, by simp [Device.request, hirr], hisr, hxsent, hysent⟩

lemma Corresponds.accept (h : Corresponds sent x y) (vector : BitVec 8) :
    Corresponds sent (x.accept vector) (y.accept vector) := by
  obtain ⟨hx, hy, hid, hsmall, hregs, hirr, hisr, hxsent, hysent⟩ := h
  exact ⟨hx, hy, hid, hsmall, hregs, by simp [Device.accept, hirr],
    by simp [Device.accept, hisr], hxsent, hysent⟩

lemma Corresponds.countDown (h : Corresponds sent x y) :
    Corresponds sent x.countDown y.countDown := by
  obtain ⟨hx, hy, hid, hsmall, hregs, hirr, hisr, hxsent, hysent⟩ := h
  exact ⟨hx, hy, hid, hsmall, by simp [Device.countDown, hregs], hirr, hisr, hxsent, hysent⟩

lemma Corresponds.tick (h : Corresponds sent x y) : Corresponds sent x.tick y.tick := by
  have hcount := h.countDown
  simp only [Device.tick, h.regs, hcount.regs]
  split_ifs
  · exact h
  · exact hcount.request _
  · exact hcount

/-- The interrupts that an operation asks for. -/
def Op.sends : Op → List Ipi
  | .sendIpi cpu vector mode level trigger => [⟨cpu, command vector mode level trigger⟩]
  | _ => []

/-- The operations in which the drivers agree: all but direct accesses to the registers that are
apart or differ in the two modes, and values with reserved bits. -/
def Op.Common : Op → Prop
  | .sendIpi _ vector mode level trigger =>
      Device.takes regIcr (command vector mode level trigger) = true
  | .readReg reg => Reads reg
  | .writeReg reg value => Writes reg value
  | _ => True

/-- One operation does the same to both, with the same answer. -/
lemma Corresponds.perform (h : Corresponds sent x y) (base : PhysAddr) {op : Op}
    (hop : op.Common) :
    Both (fun r r' => r.1 = r'.1 ∧ Corresponds (op.sends ++ sent) r.2 r'.2)
      (perform (XApic.driver base) x op) (perform X2Apic.driver y op) := by
  cases op with
  | setDefaults => exact (h.setDefaults base).bind fun _ _ h' => .pure ⟨rfl, h'⟩
  | clearErrors => exact (h.writes base (by decide)).bind fun _ _ h' => .pure ⟨rfl, h'⟩
  | sendEoi => exact (h.writes base (by decide)).bind fun _ _ h' => .pure ⟨rfl, h'⟩
  | setPriority vector =>
    exact (h.writes base (writes_vector (by decide) rfl (by decide) vector)).bind
      fun _ _ h' => .pure ⟨rfl, h'⟩
  | setTimeout vector ticks =>
    exact (h.setTimeout base vector ticks).bind fun _ _ h' => .pure ⟨rfl, h'⟩
  | clearTimeout => exact (h.writes base (by decide)).bind fun _ _ h' => .pure ⟨rfl, h'⟩
  | sendIpi cpu vector mode level trigger =>
    exact (h.sends cpu vector mode level trigger hop).bind fun _ _ h' => .pure ⟨rfl, h'⟩
  | isRequested vector =>
    refine (h.hasBit base (.inr rfl) vector).bind ?_
    rintro b _ rfl
    exact .pure ⟨rfl, h⟩
  | isInService vector =>
    refine (h.hasBit base (.inl rfl) vector).bind ?_
    rintro b _ rfl
    exact .pure ⟨rfl, h⟩
  | isTimerRunning =>
    refine (h.isTimerRunning base).bind ?_
    rintro b _ rfl
    exact .pure ⟨rfl, h⟩
  | getId =>
    refine (h.getId base).bind ?_
    rintro id _ rfl
    exact .pure ⟨rfl, h⟩
  | readReg reg =>
    refine (h.reads base hop).bind ?_
    rintro value _ rfl
    exact .pure ⟨rfl, h⟩
  | writeReg reg value => exact (h.writes base hop).bind fun _ _ h' => .pure ⟨rfl, h'⟩
  | request vector => exact .pure ⟨rfl, h.request vector⟩
  | accept vector => exact .pure ⟨rfl, h.accept vector⟩
  | tick => exact .pure ⟨rfl, h.tick⟩

end

/-- An APIC as the hardware keeps it: no reserved bits, and an x2APIC only where there is one. -/
structure Valid (d : Device) : Prop where
  reserved : d.base &&& 0x2ff = 0
  extended : d.extended = true → d.enabled = true ∧ d.x2apic = true

section
variable {d : Device} {value base : Word}

lemma readMsr_base : readMsr 0x1b d = .ok d.base := by
  have hjoin : (d.base.extractLsb' 32 32).setWidth 64 <<< 0x20 |||
      (d.base.extractLsb' 0 32).setWidth 64 = d.base := by
    apply BitVec.eq_of_getLsbD_eq
    intro i hi
    by_cases hlow : i < 32
    · simp [hlow, hi]
    · simp [hlow, hi, show i - 32 < 32 by omega, show 32 + (i - 32) = i by omega]
  exact congrArg Except.ok hjoin

lemma writeMsr_base : writeMsr 0x1b value d =
    if d.Accepts value then .ok { d with base := value } else .error .generalProtection := by
  have hjoin : (value >>> 0x20).setWidth 32 ++ (value &&& 0xffffffff).setWidth 32 = value := by
    rw [low_word]
    apply BitVec.eq_of_getLsbD_eq
    intro i hi
    refine BitVec.getLsbD_append.trans ?_
    by_cases hlow : i < 32
    · simp [hlow]
    · simp [hlow, show i - 32 < 32 by omega, show 32 + (i - 32) = i by omega]
  simp only [writeMsr, Device.wrmsr, if_true, hjoin]

lemma flags_reserved (hbase : d.base &&& 0x2ff = 0) : d.base &&& 0xf00 &&& 0x2ff = 0 := by
  rw [BitVec.and_assoc, show (0xf00 &&& 0x2ff : Word) = 0x2ff &&& 0x200 from rfl,
    ← BitVec.and_assoc, hbase]
  rfl

lemma x2apic_enable (hd : Valid d) : X2Apic.enable d =
    if d.enabled = true ∧ d.x2apic = true then
      .ok { d with base := d.base &&& 0xf00 ||| 0xc00 }
    else .error .generalProtection := by
  have hvalue : X2Apic.enable d = writeMsr 0x1b (d.base &&& 0xf00 ||| 0xc00) d := by
    simp only [X2Apic.enable, readMsr_base]
    rfl
  have haccepts : d.Accepts (d.base &&& 0xf00 ||| 0xc00) ↔
      d.enabled = true ∧ d.x2apic = true := by
    have hlow : (d.base &&& 0xf00 ||| 0xc00) &&& 0x2ff = 0 := by
      rw [BitVec.and_or_distrib_right, flags_reserved hd.reserved]
      rfl
    have h10 : (d.base &&& 0xf00 ||| 0xc00).getLsbD 10 = true := by simp
    have h11 : (d.base &&& 0xf00 ||| 0xc00).getLsbD 11 = true := by simp
    simp only [Device.Accepts, hlow, h10, h11, true_and, true_implies, implies_true, and_true]
    exact and_comm
  rw [hvalue, writeMsr_base]
  exact if_congr haccepts rfl rfl

lemma xapic_extended (d : Device) (hpage : base &&& 0xfff = 0) :
    (base ||| (d.base &&& 0xf00 ||| 0x800)).getLsbD 10 = d.extended := by
  have hbit := congrArg (BitVec.getLsbD · 10) hpage
  simp only [BitVec.getLsbD_and] at hbit
  simp at hbit
  simp [hbit, Device.extended]

/-- The bits of the base register make it an xAPIC, unless it was an x2APIC before. -/
lemma xapic_enable (hd : Valid d) (hpage : base &&& 0xfff = 0) : XApic.enable base d =
    .ok { d with base := base ||| (d.base &&& 0xf00 ||| 0x800) } := by
  have hvalue : XApic.enable base d =
      writeMsr 0x1b (base ||| (d.base &&& 0xf00 ||| 0x800)) d := by
    simp only [XApic.enable, readMsr_base]
    rfl
  have hlow : (base ||| (d.base &&& 0xf00 ||| 0x800)) &&& 0x2ff = 0 := by
    have hbase : base &&& 0x2ff = 0 := by
      rw [show (0x2ff : Word) = 0xfff &&& 0x2ff from rfl, ← BitVec.and_assoc, hpage]
      rfl
    rw [BitVec.and_or_distrib_right, BitVec.and_or_distrib_right, flags_reserved hd.reserved, hbase]
    rfl
  have h10 := xapic_extended d hpage
  have h11 : (base ||| (d.base &&& 0xf00 ||| 0x800)).getLsbD 11 = true := by simp
  have haccepts : d.Accepts (base ||| (d.base &&& 0xf00 ||| 0x800)) := by
    refine ⟨hlow, fun h => ⟨h11, ?_⟩, fun h => ?_, fun h _ => h10.trans h⟩
    · exact (hd.extended (h10 ▸ h)).2
    · exact (hd.extended (h10 ▸ h)).1
  rw [hvalue, writeMsr_base, if_pos haccepts]

end

/-- The registers that `SetDefaults` writes, in order. -/
def defaults : List (BitVec 16 × Word) :=
  [(regTaskPriority, 0x0), (regLvtTimer, 0x10000), (regLvtPerf, 0x10000), (regLvtLint0, 0x8700),
    (regLvtLint1, 0x400), (regLvtError, 0x10000), (regSpurious, 0x1ff), (regLvtLint0, 0x8700),
    (regLvtLint1, 0x400), (regTimerDiv, 0x3)]

def Device.writes (l : List (BitVec 16 × Word)) (d : Device) : Device :=
  l.foldl (fun d w => d.write w.1 (w.2.setWidth 32)) d

section
variable {L : Driver} {P : Device → Prop} {d : Device} {base : Word}

lemma setDefaults_eq_foldlM (L : Driver) (d : Device) :
    setDefaults L d = defaults.foldlM (fun d w => L.writeReg w.1 w.2 d) d := by
  simp [setDefaults, defaults]

/-- A driver whose writes reach the registers in some kind of state. -/
def Reaches (L : Driver) (P : Device → Prop) : Prop := ∀ d reg value, P d →
  Writes reg value → L.writeReg reg value d = .ok (d.write reg (value.setWidth 32))

lemma writes_eq (hL : Reaches L P) (hkeep : ∀ d reg v, P d → P (d.write reg v))
    (l : List (BitVec 16 × Word)) (hl : ∀ w ∈ l, Writes w.1 w.2) (hd : P d) :
    l.foldlM (fun d w => L.writeReg w.1 w.2 d) d = .ok (d.writes l) := by
  induction l generalizing d with
  | nil => rfl
  | cons w l ih =>
    obtain ⟨hw, hl⟩ := List.forall_mem_cons.mp hl
    rw [List.foldlM_cons, hL d w.1 w.2 hd hw]
    exact ih hl (hkeep d _ _ hd)

lemma write_base (d : Device) (reg : BitVec 16) (v : BitVec 32) : (d.write reg v).base = d.base := by
  unfold Device.write
  split_ifs <;> rfl

lemma xapic_reaches : Reaches (XApic.driver base) fun d => (d.enabled && !d.extended) = true := by
  intro d reg value hd hwrites
  rw [XApic.driver_writeReg, xapic_writeReg hd hwrites]

lemma x2apic_reaches : Reaches X2Apic.driver fun d => (d.enabled && d.extended) = true := by
  intro d reg value hd hwrites
  rw [X2Apic.driver_writeReg, x2apic_writeReg hd hwrites]

lemma defaults_writes : ∀ w ∈ defaults, Writes w.1 w.2 := by
  have hall : defaults.all (fun w => decide (Writes w.1 w.2)) = true := by decide
  simpa using hall

lemma xapic_setDefaults (hd : (d.enabled && !d.extended) = true) :
    setDefaults (XApic.driver base) d = .ok (d.writes defaults) := by
  rw [setDefaults_eq_foldlM]
  refine writes_eq xapic_reaches (fun d reg v h => ?_) _ defaults_writes hd
  simpa [Device.enabled, Device.extended, write_base] using h

lemma x2apic_setDefaults (hd : (d.enabled && d.extended) = true) :
    setDefaults X2Apic.driver d = .ok (d.writes defaults) := by
  rw [setDefaults_eq_foldlM]
  refine writes_eq x2apic_reaches (fun d reg v h => ?_) _ defaults_writes hd
  simpa [Device.enabled, Device.extended, write_base] using h

lemma xapic_setDefaults_error (hd : d.extended = true) :
    setDefaults (XApic.driver base) d = .error .notTheApic := by
  have hwrite : XApic.writeReg regTaskPriority 0x0 d = .error .notTheApic := by
    simp [XApic.writeReg, Device.store, hd, regTaskPriority, regIcr]
  rw [setDefaults, XApic.driver_writeReg, hwrite]
  rfl

lemma x2apic_start (hd : Valid d) : start X2Apic.driver d =
    if d.enabled = true ∧ d.x2apic = true then
      .ok (Device.writes defaults { d with base := d.base &&& 0xf00 ||| 0xc00 })
    else .error .generalProtection := by
  have hstart : start X2Apic.driver d = X2Apic.enable d >>= setDefaults X2Apic.driver := rfl
  rw [hstart, x2apic_enable hd]
  split_ifs
  · exact x2apic_setDefaults (by simp [Device.enabled, Device.extended])
  · rfl

lemma xapic_start (hd : Valid d) (hpage : base &&& 0xfff = 0) : start (XApic.driver base) d =
    if d.extended = true then .error .notTheApic
    else .ok (Device.writes defaults
      { d with base := base ||| (d.base &&& 0xf00 ||| 0x800) }) := by
  have hstart : start (XApic.driver base) d =
      XApic.enable base d >>= setDefaults (XApic.driver base) := rfl
  have h10 := xapic_extended d hpage
  rw [hstart, xapic_enable hd hpage]
  split_ifs with hext
  · exact xapic_setDefaults_error (h10.trans hext)
  · refine xapic_setDefaults (Bool.and_eq_true_iff.mpr ⟨by simp [Device.enabled], ?_⟩)
    change (!(base ||| (d.base &&& 0xf00 ||| 0x800)).getLsbD 10) = true
    rw [h10]
    simpa using hext

end

section
variable {d : Device} {features : Features} {lapicAddr : BitVec 32}

/-- `GetLapic` tests the flag of the debug store instead of that of the x2APIC: a CPU with the one
and not the other stops at a general protection fault, and a CPU without the first stops where its
APIC is an x2APIC already. -/
theorem start_iff (hd : Valid d) (hecx : d.x2apic = features.ecx.getLsbD 21)
    (hpage : (lapicAddr.setWidth 64 : Word) &&& 0xfff = 0) :
    (∃ d', start (getLapic features lapicAddr) d = .ok d') ↔
      if features.edx.getLsbD 21 = true then
        features.ecx.getLsbD 21 = true ∧ d.enabled = true
      else d.extended = false := by
  have htest : features.edx &&& 1 <<< 21 ≠ 0 ↔ features.edx.getLsbD 21 = true := by
    rw [show (1 <<< 21 : BitVec 32) = BitVec.twoPow 32 21 from rfl, BitVec.and_twoPow]
    split_ifs with hbit
    · exact ⟨fun _ => hbit, fun _ => by decide⟩
    · exact ⟨fun h => absurd rfl h, fun h => absurd h hbit⟩
  unfold getLapic
  rw [← hecx]
  by_cases hedx : features.edx.getLsbD 21 = true
  · rw [if_pos (htest.mpr hedx), if_pos hedx, x2apic_start hd]
    split_ifs with hon
    · exact ⟨fun _ => hon.symm, fun _ => ⟨_, rfl⟩⟩
    · exact ⟨fun ⟨_, h⟩ => (by cases h), fun h => absurd h.symm hon⟩
  · rw [if_neg (mt htest.mp hedx), if_neg hedx, xapic_start hd hpage]
    split_ifs with hext
    · exact ⟨fun ⟨_, h⟩ => (by cases h), fun h => (by simp [hext] at h)⟩
    · exact ⟨fun _ => by simpa using hext, fun _ => ⟨_, rfl⟩⟩

/-- The APIC of a boot processor after reset. -/
def resetDevice (x2apic : Bool) : Device where
  base := 0xfee00900
  x2apic := x2apic
  id := 0
  regs _ := 0
  icrHigh := 0
  irr := 0
  isr := 0
  ipis := []

lemma resetDevice_valid (x2apic : Bool) : Valid (resetDevice x2apic) where
  reserved := show (0xfee00900 : Word) &&& 0x2ff = 0 by decide
  extended h := absurd (show (0xfee00900 : Word).getLsbD 10 = true from h) (by decide)

/-- A CPU with a debug store that has no x2APIC does not start. -/
theorem start_iff_debug_store :
    ¬∃ d', start (getLapic ⟨0x200000, 0⟩ 0xfee00000) (resetDevice false) = .ok d' := by
  rw [start_iff (resetDevice_valid false) rfl (by decide)]
  exact fun h => by cases h.1

/-- A CPU starts its APIC with a driver, and goes on with it. -/
def boot (L : Driver) (ops : List Op) (d : Device) : Except Stop (List Answer × Device) := do
  let d ← start L d
  runOps L ops d

end

end Anarch.Lapic
