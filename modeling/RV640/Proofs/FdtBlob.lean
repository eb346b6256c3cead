import RV640.Fdt.Read
import RV640.Lib.Masks

set_option autoImplicit false

/-! # Places in a device tree blob

The header fields and the tags as places of the buffer: what a write leaves alone, and where
`fdt_next_tag` goes from a call that is laid out in the structure block. Offsets are natural numbers
below 2³¹ here; the words of the source are their images.
-/

namespace RV640

open Bits Bytes

/-! ## Words and ranges -/

theorem fdt32Ld_congr {f g : HostBuf} {p q : Nat}
    (h : ∀ i, i < 4 → f.data (p + i) = g.data (q + i)) : fdt32Ld f p = fdt32Ld g q := ldBe_congr h

theorem fdt32Ld_fdt32St (fdt : HostBuf) (p : Nat) (v : BitVec 32) :
    fdt32Ld (fdt32St fdt p v) p = v := ldBe_stBe (by omega) _ _ _

theorem fdt32St_outside (fdt : HostBuf) (p : Nat) (v : BitVec 32) {i : Nat}
    (h : i < p ∨ p + 4 ≤ i) : (fdt32St fdt p v).data i = fdt.data i := stBe_outside 4 _ _ _ h

theorem write_outside (fdt : HostBuf) (p : Nat) (bs : List Byte) {i : Nat}
    (h : i < p ∨ p + bs.length ≤ i) : (fdt.write p bs).data i = fdt.data i :=
  writeAt_outside _ _ _ h

theorem fdt32Ld_fdt32St_apart (fdt : HostBuf) {p q : Nat} (v : BitVec 32)
    (h : q + 4 ≤ p ∨ p + 4 ≤ q) : fdt32Ld (fdt32St fdt p v) q = fdt32Ld fdt q :=
  ldBe_stBe_apart _ _ h

theorem fdt32Ld_write (fdt : HostBuf) {p q : Nat} (bs : List Byte)
    (h : q + 4 ≤ p ∨ p + bs.length ≤ q) : fdt32Ld (fdt.write p bs) q = fdt32Ld fdt q :=
  fdt32Ld_congr fun _ hi => write_outside _ _ _ (by omega)

theorem read_write (fdt : HostBuf) (p : Nat) (bs : List Byte) :
    (fdt.write p bs).read p bs.length = bs := readAt_writeAt_self _ _ _

theorem writeBefore_of_le (fdt : HostBuf) {p n : Nat} (bs : List Byte) (h : n ≤ p) :
    fdt.writeBefore p n bs = fdt.write (p - n) bs := by
  rw [HostBuf.writeBefore, Nat.sub_eq_zero_of_le h, List.drop_zero]

theorem read_congr {f g : HostBuf} {p q n : Nat}
    (h : ∀ i, i < n → f.data (p + i) = g.data (q + i)) : f.read p n = g.read q n := readAt_congr h

/-! ## The header -/

theorem FdtField.offset_add_le (f : FdtField) : f.offset + 4 ≤ 40 := by cases f <;> decide

theorem FdtField.offset_apart {f g : FdtField} (h : f ≠ g) :
    f.offset + 4 ≤ g.offset ∨ g.offset + 4 ≤ f.offset := by
  revert h
  cases f <;> cases g <;> decide

@[simp] theorem fdtGetHeader_set (fdt : HostBuf) (f : FdtField) (v : BitVec 32) :
    fdtGetHeader (fdtSetHeader fdt f v) f = v := fdt32Ld_fdt32St fdt _ v

@[simp] theorem fdtGetHeader_set_ne (fdt : HostBuf) {f g : FdtField} (h : f ≠ g) (v : BitVec 32) :
    fdtGetHeader (fdtSetHeader fdt f v) g = fdtGetHeader fdt g :=
  ldBe_stBe_apart _ _ (FdtField.offset_apart h).symm

/-- The blob behind the header is no field of it. -/
theorem fdtSetHeader_data (fdt : HostBuf) (f : FdtField) (v : BitVec 32) {i : Nat} (h : 40 ≤ i) :
    (fdtSetHeader fdt f v).data i = fdt.data i :=
  fdt32St_outside _ _ _ (Or.inr ((FdtField.offset_add_le f).trans h))

theorem fdtGetHeader_congr {f g : HostBuf} (h : ∀ i, i < 40 → f.data i = g.data i) (k : FdtField) :
    fdtGetHeader f k = fdtGetHeader g k :=
  fdt32Ld_congr fun i hi => h _ (by have := k.offset_add_le; omega)

theorem fdtGetHeader_st (fdt : HostBuf) {p : Nat} (hp : 40 ≤ p) (v : BitVec 32) (k : FdtField) :
    fdtGetHeader (fdt32St fdt p v) k = fdtGetHeader fdt k :=
  fdtGetHeader_congr (fun _ hi => fdt32St_outside _ _ _ (Or.inl (by omega))) k

theorem fdtGetHeader_write (fdt : HostBuf) {p : Nat} (hp : 40 ≤ p) (bs : List Byte)
    (k : FdtField) : fdtGetHeader (fdt.write p bs) k = fdtGetHeader fdt k :=
  fdtGetHeader_congr (fun _ hi => write_outside _ _ _ (Or.inl (by omega))) k

/-! ## Calls laid out in the structure block -/

/-- The space a call takes. -/
def FdtCall.size : FdtCall → Nat
  | beginNode name => 4 + fdtTagAlign (name.length + 1)
  | property _ val => 12 + fdtTagAlign val.length
  | endNode => 4

/-- The tag of a call. -/
def FdtCall.tag : FdtCall → BitVec 32
  | beginNode _ => fdtBeginNodeTag
  | property _ _ => fdtPropTag
  | endNode => fdtEndNodeTag

/-- What stands at `p` for a call; `str` tells which name the offset of a property stands for. -/
def FdtCall.At (str : BitVec 32 → CString → Prop) (fdt : HostBuf) (p : Nat) : FdtCall → Prop
  | beginNode name => fdt32Ld fdt p = fdtBeginNodeTag ∧
      fdt.read (p + 4) (name.length + 1) = name.bytes
  | property name val => fdt32Ld fdt p = fdtPropTag ∧
      fdt32Ld fdt (p + 4) = BitVec.ofNat 32 val.length ∧
      str (fdt32Ld fdt (p + 8)) name ∧ fdt.read (p + 12) val.length = val
  | endNode => fdt32Ld fdt p = fdtEndNodeTag

/-- One call after the other from `p` on. -/
def CallsAt (str : BitVec 32 → CString → Prop) (fdt : HostBuf) : Nat → List FdtCall → Prop
  | _, [] => True
  | p, t :: ts => t.At str fdt p ∧ CallsAt str fdt (p + t.size) ts

/-- The space some calls take. -/
def callsSize (ts : List FdtCall) : Nat := (ts.map FdtCall.size).sum

@[simp] theorem callsSize_nil : callsSize [] = 0 := rfl

@[simp] theorem callsSize_cons (t : FdtCall) (ts : List FdtCall) :
    callsSize (t :: ts) = t.size + callsSize ts := by simp [callsSize]

@[simp] theorem callsSize_append (xs ys : List FdtCall) :
    callsSize (xs ++ ys) = callsSize xs + callsSize ys := by simp [callsSize]

theorem le_fdtTagAlign (n : Nat) : n ≤ fdtTagAlign n := by unfold fdtTagAlign; omega

theorem fdtTagAlign_mod (n : Nat) : fdtTagAlign n % 4 = 0 := by unfold fdtTagAlign; omega

theorem FdtCall.size_mod (t : FdtCall) : t.size % 4 = 0 := by
  cases t with
  | beginNode name =>
      have := fdtTagAlign_mod (name.length + 1)
      simp only [FdtCall.size]
      omega
  | property name val =>
      have := fdtTagAlign_mod val.length
      simp only [FdtCall.size]
      omega
  | endNode => rfl

theorem FdtCall.four_le_size (t : FdtCall) : 4 ≤ t.size := by
  cases t with
  | beginNode name => simp [FdtCall.size]
  | property name val =>
      simp only [FdtCall.size]
      omega
  | endNode => exact Nat.le_refl 4

theorem callsSize_mod (ts : List FdtCall) : callsSize ts % 4 = 0 := by
  induction ts with
  | nil => rfl
  | cons t ts ih =>
      have := t.size_mod
      rw [callsSize_cons]
      omega

theorem length_le_callsSize (ts : List FdtCall) : 4 * ts.length ≤ callsSize ts := by
  induction ts with
  | nil => exact Nat.le_refl 0
  | cons t ts ih =>
      have := t.four_le_size
      rw [callsSize_cons, List.length_cons]
      omega

theorem FdtCall.At.congr {str str' : BitVec 32 → CString → Prop} {f g : HostBuf} {p q : Nat}
    {t : FdtCall} (h : t.At str f p) (hb : ∀ i, i < t.size → f.data (p + i) = g.data (q + i))
    (hs : ∀ off name, str off name → str' off name) : t.At str' g q := by
  have hword : ∀ k, k + 4 ≤ t.size → fdt32Ld g (q + k) = fdt32Ld f (p + k) := by
    intro k hk
    apply fdt32Ld_congr
    intro i hi
    rw [Nat.add_assoc, Nat.add_assoc]
    exact (hb _ (by omega)).symm
  have hrange : ∀ k n, k + n ≤ t.size → g.read (q + k) n = f.read (p + k) n := by
    intro k n hk
    apply read_congr
    intro i hi
    rw [Nat.add_assoc, Nat.add_assoc]
    exact (hb _ (by omega)).symm
  cases t with
  | beginNode name =>
      obtain ⟨htag, hname⟩ := h
      have hsize := le_fdtTagAlign (name.length + 1)
      simp only [FdtCall.size] at hword hrange
      exact ⟨(hword 0 (by omega)).trans htag, (hrange 4 _ (by omega)).trans hname⟩
  | property name val =>
      obtain ⟨htag, hlen, hoff, hval⟩ := h
      have hsize := le_fdtTagAlign val.length
      simp only [FdtCall.size] at hword hrange
      refine ⟨(hword 0 (by omega)).trans htag, (hword 4 (by omega)).trans hlen, ?_,
        (hrange 12 _ (by omega)).trans hval⟩
      rw [hword 8 (by omega)]
      exact hs _ _ hoff
  | endNode => exact (hword 0 (by simp [FdtCall.size])).trans h

theorem CallsAt.congr {str str' : BitVec 32 → CString → Prop} {f g : HostBuf} {p q : Nat}
    {ts : List FdtCall} (h : CallsAt str f p ts)
    (hb : ∀ i, i < callsSize ts → f.data (p + i) = g.data (q + i))
    (hs : ∀ off name, str off name → str' off name) : CallsAt str' g q ts := by
  induction ts generalizing p q with
  | nil => trivial
  | cons t ts ih =>
      obtain ⟨ht, hts⟩ := h
      simp only [callsSize_cons] at hb
      refine ⟨ht.congr (fun i hi => hb i (by omega)) hs, ih hts fun i hi => ?_⟩
      rw [Nat.add_assoc, Nat.add_assoc]
      exact hb _ (by omega)

theorem callsAt_append {str : BitVec 32 → CString → Prop} {fdt : HostBuf} {p : Nat}
    {xs ys : List FdtCall} :
    CallsAt str fdt p (xs ++ ys)
      ↔ CallsAt str fdt p xs ∧ CallsAt str fdt (p + callsSize xs) ys := by
  induction xs generalizing p with
  | nil => simp [CallsAt]
  | cons t xs ih =>
      simp only [List.cons_append, CallsAt, ih, callsSize_cons, Nat.add_assoc, and_assoc]

/-! ## Pointers into the structure block -/

/-- Where the structure block starts: behind the header and the one entry of the reserve map. -/
def fdtStruct : Nat := 64

/-- The header of a blob of `size` bytes with `used` bytes in its structure block. -/
structure FdtSized (fdt : HostBuf) (size used : Nat) : Prop where
  totalsize : fdtGetHeader fdt .totalsize = BitVec.ofNat 32 size
  offDtStruct : fdtGetHeader fdt .offDtStruct = BitVec.ofNat 32 fdtStruct
  sizeDtStruct : fdtGetHeader fdt .sizeDtStruct = BitVec.ofNat 32 used
  version : fdtGetHeader fdt .version = fdtLastSupportedVersion
  fits : fdtStruct + used ≤ size
  small : size < 2 ^ 31

theorem toNat_ofNat_word {n : Nat} (h : n < 2 ^ 32) : (BitVec.ofNat 32 n).toNat = n := by
  rw [BitVec.toNat_ofNat, Nat.mod_eq_of_lt h]

theorem ofNat_slt_zero {n : Nat} (h : n < 2 ^ 31) : (BitVec.ofNat 32 n).slt 0#32 = false := by
  have hint : (BitVec.ofNat 32 n).toInt = n := by
    rw [BitVec.toInt_eq_toNat_cond, toNat_ofNat_word (by omega), if_pos (by omega)]
  rw [BitVec.slt_eq_decide, hint]
  simp

theorem ofNat_lt_iff {m n : Nat} (hm : m < 2 ^ 32) (hn : n < 2 ^ 32) :
    BitVec.ofNat 32 m < BitVec.ofNat 32 n ↔ m < n := by
  rw [BitVec.lt_def, toNat_ofNat_word hm, toNat_ofNat_word hn]

theorem ofNat_le_iff {m n : Nat} (hm : m < 2 ^ 32) (hn : n < 2 ^ 32) :
    BitVec.ofNat 32 m ≤ BitVec.ofNat 32 n ↔ m ≤ n := by
  rw [BitVec.le_def, toNat_ofNat_word hm, toNat_ofNat_word hn]

theorem ofNat_add_ofNat (m n : Nat) :
    BitVec.ofNat 32 m + BitVec.ofNat 32 n = BitVec.ofNat 32 (m + n) := (BitVec.ofNat_add m n).symm

/-- A pointer is given for a range of the structure block and no other. -/
theorem fdtOffsetPtr_eq {fdt : HostBuf} {size used : Nat} (h : FdtSized fdt size used)
    (assumePerfect : Bool) {o l : Nat} (hol : o + l < 2 ^ 31) :
    fdtOffsetPtr assumePerfect fdt (BitVec.ofNat 32 o) (BitVec.ofNat 32 l)
      = if o + l ≤ used then some (fdtStruct + o) else none := by
  have hfits := h.fits
  have hsmall := h.small
  have hstruct : fdtStruct = 64 := rfl
  have hver : (0x11#32 ≤ fdtLastSupportedVersion) := by decide
  unfold fdtOffsetPtr
  simp only [h.totalsize, h.offDtStruct, h.sizeDtStruct, h.version, ofNat_add_ofNat]
  rw [ofNat_slt_zero (by omega), if_neg Bool.false_ne_true]
  rw [decide_eq_false (mt (ofNat_lt_iff (by omega) (by omega)).mp (by omega)),
    decide_eq_false (mt (ofNat_lt_iff (by omega) (by omega)).mp (by omega)),
    decide_eq_false (mt (ofNat_lt_iff (m := o + l) (n := o) (by omega) (by omega)).mp (by omega))]
  rw [decide_eq_true hver]
  simp only [Bool.or_true, Bool.true_and, Bool.false_or, Bool.or_self]
  by_cases hle : o + l ≤ used
  · have h1 : decide (BitVec.ofNat 32 size < BitVec.ofNat 32 (o + fdtStruct + l)) = false :=
      decide_eq_false (mt (ofNat_lt_iff (by omega) (by omega)).mp (by omega))
    have h2 : decide (BitVec.ofNat 32 used < BitVec.ofNat 32 (o + l)) = false :=
      decide_eq_false (mt (ofNat_lt_iff (by omega) (by omega)).mp (by omega))
    rw [h1, h2, Bool.and_false, if_neg Bool.false_ne_true, if_neg Bool.false_ne_true, if_pos hle,
      toNat_ofNat_word (by omega), toNat_ofNat_word (by omega)]
  · have h2 : decide (BitVec.ofNat 32 used < BitVec.ofNat 32 (o + l)) = true :=
      decide_eq_true ((ofNat_lt_iff (by omega) (by omega)).mpr (by omega))
    rw [h2, if_neg hle, if_pos rfl]
    split <;> rfl

theorem fdtTagAlignInt_ofNat {n : Nat} (h : n < 2 ^ 31) :
    fdtTagAlignInt (BitVec.ofNat 32 n) = BitVec.ofNat 32 (fdtTagAlign n) := by
  have hadd : BitVec.ofNat 32 n + 4#32 - 1#32 = BitVec.ofNat 32 (n + 3) := by
    have hthree : BitVec.ofNat 32 n + 4#32 - 1#32 = BitVec.ofNat 32 n + BitVec.ofNat 32 3 := by
      bv_omega
    rw [hthree, ofNat_add_ofNat]
  have hmask : 4#32 - 1#32 = (1#32 <<< 2) - 1#32 := by decide
  apply BitVec.eq_of_toNat_eq
  rw [fdtTagAlignInt, hadd, hmask, toNat_align_down _ (by omega), toNat_ofNat_word (by omega),
    toNat_ofNat_word (by unfold fdtTagAlign; omega), fdtTagAlign,
    show (2 ^ 2 : Nat) = 4 from rfl]

/-! ## Tags -/

/-- The loop over a name ends behind the 0 that terminates it. -/
theorem fdtSkipName_name {fdt : HostBuf} {size used : Nat} (h : FdtSized fdt size used)
    (assumePerfect : Bool) {cs : List Byte} (hcs : 0#8 ∉ cs) {o : Nat}
    (hread : fdt.read (fdtStruct + o) (cs.length + 1) = cs ++ [0#8])
    (hle : o + cs.length + 1 ≤ used) {fuel : Nat} (hfuel : cs.length < fuel) :
    fdtSkipName assumePerfect fdt fuel (BitVec.ofNat 32 o)
      = some (BitVec.ofNat 32 (o + cs.length + 1)) := by
  have hfits := h.fits
  have hsmall := h.small
  induction cs generalizing o fuel with
  | nil =>
      obtain ⟨fuel, rfl⟩ := Nat.exists_eq_succ_of_ne_zero (by omega : fuel ≠ 0)
      have h0 : fdt.data (fdtStruct + o) = 0#8 := by simpa [HostBuf.read, readAt] using hread
      rw [fdtSkipName, show (1#32) = BitVec.ofNat 32 1 from rfl,
        fdtOffsetPtr_eq h _ (by omega), if_pos (by simpa using hle)]
      simp only
      rw [if_pos h0, ofNat_add_ofNat]
      rfl
  | cons b cs ih =>
      obtain ⟨fuel, rfl⟩ := Nat.exists_eq_succ_of_ne_zero (by omega : fuel ≠ 0)
      simp only [List.length_cons] at hread hle hfuel ⊢
      rw [HostBuf.read, readAt_succ, List.cons_append, List.cons.injEq] at hread
      obtain ⟨hb, hrest⟩ := hread
      have hb0 : fdt.data (fdtStruct + o) ≠ 0#8 := by
        rw [hb]
        exact fun h0 => hcs (h0 ▸ List.mem_cons_self)
      rw [fdtSkipName, show (1#32) = BitVec.ofNat 32 1 from rfl,
        fdtOffsetPtr_eq h _ (by omega), if_pos (by omega)]
      simp only
      rw [if_neg hb0, ofNat_add_ofNat]
      have hfuel' : cs.length < fuel := by omega
      have := ih (fun hm => hcs (List.mem_cons_of_mem b hm)) (o := o + 1) hrest (by omega) hfuel'
      rw [this, show o + 1 + cs.length + 1 = o + (cs.length + 1) + 1 by omega]

/-- The end of `fdt_next_tag`, for a tag that lies in the structure block. -/
theorem fdtTagEnd_eq {fdt : HostBuf} {size used : Nat} (h : FdtSized fdt size used)
    (assumePerfect : Bool) (tag : BitVec 32) {o l : Nat} (hl : o + l ≤ used) (ho : o % 4 = 0) :
    fdtTagEnd assumePerfect fdt tag (BitVec.ofNat 32 o) (BitVec.ofNat 32 (o + l))
      = (tag, BitVec.ofNat 32 (o + fdtTagAlign l)) := by
  have hfits := h.fits
  have hsmall := h.small
  have hsub : BitVec.ofNat 32 (o + l) - BitVec.ofNat 32 o = BitVec.ofNat 32 l := by
    rw [← ofNat_add_ofNat]
    bv_omega
  have halign : fdtTagAlign (o + l) = o + fdtTagAlign l := by
    unfold fdtTagAlign
    omega
  rw [fdtTagEnd, hsub, fdtOffsetPtr_eq h _ (by omega), if_pos hl, fdtTagAlignInt_ofNat (by omega),
    halign]

/-- `fdt_next_tag` on a call in the structure block goes to the next one. -/
theorem fdtNextTag_call {fdt : HostBuf} {size used : Nat} (h : FdtSized fdt size used)
    (assumePerfect : Bool) {str : BitVec 32 → CString → Prop} {o : Nat} {t : FdtCall}
    (ht : t.At str fdt (fdtStruct + o)) (hle : o + t.size ≤ used) (ho : o % 4 = 0) :
    fdtNextTag assumePerfect fdt (BitVec.ofNat 32 o)
      = (t.tag, BitVec.ofNat 32 (o + t.size)) := by
  have hfits := h.fits
  have hsmall := h.small
  have hfour := t.four_le_size
  have hptr : fdtOffsetPtr assumePerfect fdt (BitVec.ofNat 32 o) 4#32 = some (fdtStruct + o) := by
    rw [show (4#32) = BitVec.ofNat 32 4 from rfl, fdtOffsetPtr_eq h _ (by omega), if_pos (by omega)]
  have hnext : BitVec.ofNat 32 o + 4#32 = BitVec.ofNat 32 (o + 4) := ofNat_add_ofNat o 4
  rw [fdtNextTag, hptr]
  simp only [hnext]
  cases t with
  | beginNode name =>
      obtain ⟨htag, hname⟩ := ht
      have halign := le_fdtTagAlign (name.length + 1)
      have hname4 : fdtTagAlign (4 + name.length + 1) = 4 + fdtTagAlign (name.length + 1) := by
        unfold fdtTagAlign
        omega
      simp only [FdtCall.size] at hle ⊢
      have hused : name.chars.length < used := by
        simp only [CString.length] at *
        omega
      have hskip := fdtSkipName_name h assumePerfect name.nonzero (o := o + 4) hname
        (by simp only [CString.length] at *; omega) hused
      rw [htag, if_pos rfl, h.sizeDtStruct, toNat_ofNat_word (by omega), hskip]
      simp only
      rw [show o + 4 + name.chars.length + 1 = o + (4 + name.length + 1) by
        simp only [CString.length]; omega, fdtTagEnd_eq h _ _ (by omega) ho, hname4]
      rfl
  | property name val =>
      obtain ⟨htag, hlen, -, -⟩ := ht
      have halign := le_fdtTagAlign val.length
      have hval : fdtTagAlign (12 + val.length) = 12 + fdtTagAlign val.length := by
        unfold fdtTagAlign
        omega
      simp only [FdtCall.size] at hle ⊢
      have hlenp : fdtOffsetPtr assumePerfect fdt (BitVec.ofNat 32 (o + 4)) 4#32
          = some (fdtStruct + (o + 4)) := by
        rw [show (4#32) = BitVec.ofNat 32 4 from rfl, fdtOffsetPtr_eq h _ (by omega),
          if_pos (by omega)]
      rw [htag, if_neg (by decide), if_pos rfl, hlenp]
      simp only
      rw [show fdtStruct + (o + 4) = fdtStruct + o + 4 by omega, hlen, ofNat_add_ofNat,
        show (0x7fffffff#32) = BitVec.ofNat 32 0x7fffffff from rfl,
        decide_eq_false (mt (ofNat_le_iff (by omega) (by omega)).mp (by omega)),
        decide_eq_false (mt (ofNat_lt_iff (by omega) (by omega)).mp (by omega))]
      have hver : decide (fdtGetHeader fdt .version < 0x10#32) = false := by
        rw [h.version]
        decide
      rw [hver, Bool.and_false, Bool.false_and, Bool.false_and, Bool.or_self, Bool.and_false,
        if_neg Bool.false_ne_true, if_neg Bool.false_ne_true,
        show (8#32) = BitVec.ofNat 32 8 from rfl, ofNat_add_ofNat, ofNat_add_ofNat,
        show o + 4 + 8 + val.length = o + (12 + val.length) by omega,
        fdtTagEnd_eq h _ _ (by omega) ho, hval]
      rfl
  | endNode =>
      have htag : fdt32Ld fdt (fdtStruct + o) = fdtEndNodeTag := ht
      simp only [FdtCall.size] at hle ⊢
      rw [htag, if_neg (by decide), if_neg (by decide), if_pos (by decide),
        fdtTagEnd_eq h _ _ (by omega) ho]
      rfl

/-- `fdt_next_tag` on the terminator. -/
theorem fdtNextTag_end {fdt : HostBuf} {size used : Nat} (h : FdtSized fdt size used)
    (assumePerfect : Bool) {o : Nat} (htag : fdt32Ld fdt (fdtStruct + o) = fdtEndTag)
    (hle : o + 4 ≤ used) (ho : o % 4 = 0) :
    fdtNextTag assumePerfect fdt (BitVec.ofNat 32 o) = (fdtEndTag, BitVec.ofNat 32 (o + 4)) := by
  have hfits := h.fits
  have hsmall := h.small
  have hptr : fdtOffsetPtr assumePerfect fdt (BitVec.ofNat 32 o) 4#32 = some (fdtStruct + o) := by
    rw [show (4#32) = BitVec.ofNat 32 4 from rfl, fdtOffsetPtr_eq h _ (by omega), if_pos (by omega)]
  have hnext : BitVec.ofNat 32 o + 4#32 = BitVec.ofNat 32 (o + 4) := ofNat_add_ofNat o 4
  rw [fdtNextTag, hptr]
  simp only [hnext]
  rw [htag, if_neg (by decide), if_neg (by decide), if_pos (by decide),
    fdtTagEnd_eq h _ _ (by omega) ho]
  rfl

end RV640
