import RV640.Proofs.FdtBlob

set_option autoImplicit false

/-! # What the sequential writer has written

A draft is the list of the calls that succeeded and the strings table. `Writing` says that a buffer
holds a draft. Every call extends the draft by itself when there is room, and otherwise fails and
leaves the draft as it is; nothing outside the buffer is written.
-/

namespace RV640

open Bits Bytes

/-! ## Drafts -/

/-- The calls so far and the strings table. -/
structure Draft where
  calls : List FdtCall
  tab : List Byte
  deriving DecidableEq

/-- The table holds a string at an index. -/
def tabHas (tab : List Byte) (s : CString) (i : Nat) : Bool :=
  (tab.drop i).take (s.length + 1) = s.bytes

/-- The first place of a string in a table. -/
def tabFind (tab : List Byte) (s : CString) : Option Nat :=
  (List.range (tab.length - s.length)).find? (tabHas tab s)

/-- The table with a string in it, once when names are shared. -/
def tabAdd (dedup : Bool) (tab : List Byte) (s : CString) : List Byte :=
  if dedup && (tabFind tab s).isSome then tab else s.bytes ++ tab

/-- The draft after a call that succeeds. -/
def Draft.add (dedup : Bool) (d : Draft) (t : FdtCall) : Draft :=
  { calls := d.calls ++ [t]
    tab :=
      match t with
      | .property name _ => tabAdd dedup d.tab name
      | _ => d.tab }

/-- The part of the buffer that is in use. -/
def Draft.space (d : Draft) : Nat := fdtStruct + callsSize d.calls + d.tab.length

/-- The offset of a property while the table grows downwards from the end of the buffer. -/
def BackName (tab : List Byte) (off : BitVec 32) (name : CString) : Prop :=
  ∃ k, 0 < k ∧ k ≤ tab.length ∧ off = -BitVec.ofNat 32 k ∧ tabHas tab name (tab.length - k) = true

theorem tabHas_append (xs tab : List Byte) (s : CString) (i : Nat) :
    tabHas (xs ++ tab) s (xs.length + i) = tabHas tab s i := by
  rw [tabHas, tabHas, List.drop_append, List.drop_of_length_le (by omega), List.nil_append,
    Nat.add_sub_cancel_left]

theorem tabHas_self (s : CString) (tab : List Byte) : tabHas (s.bytes ++ tab) s 0 = true := by
  rw [tabHas, decide_eq_true_eq, List.drop_zero, ← s.bytes_length, List.take_left]

/-- A table that grows downwards keeps the names it has. -/
theorem BackName.append {tab : List Byte} {off : BitVec 32} {name : CString}
    (h : BackName tab off name) (xs : List Byte) : BackName (xs ++ tab) off name := by
  obtain ⟨k, hk, hle, hoff, hhas⟩ := h
  refine ⟨k, hk, ?_, hoff, ?_⟩
  · rw [List.length_append]
    omega
  · rw [List.length_append, show xs.length + tab.length - k = xs.length + (tab.length - k) by omega,
      tabHas_append]
    exact hhas

/-! ## The invariant -/

/-- The buffer `fdt` of `size` bytes holds the draft `d`; behind its end there is what `host` has
there. -/
structure Writing (host : HostBuf) (flags : BitVec 32) (size : Nat) (d : Draft) (fdt : HostBuf) :
    Prop where
  sized : FdtSized fdt size (callsSize d.calls)
  magic : fdtGetHeader fdt .magic = fdtSwMagic
  offDtStrings : fdtGetHeader fdt .offDtStrings = BitVec.ofNat 32 size
  offMemRsvmap : fdtGetHeader fdt .offMemRsvmap = BitVec.ofNat 32 fdtHdrsize
  lastCompVersion : fdtGetHeader fdt .lastCompVersion = flags
  sizeDtStrings : fdtGetHeader fdt .sizeDtStrings = BitVec.ofNat 32 d.tab.length
  space : d.space ≤ size
  reserve : fdt.read fdtHdrsize 16 = List.replicate 16 0#8
  calls : CallsAt (BackName d.tab) fdt fdtStruct d.calls
  strings : fdt.read (size - d.tab.length) d.tab.length = d.tab
  outside : ∀ i, size ≤ i → fdt.data i = host.data i

variable {host : HostBuf} {flags : BitVec 32} {size : Nat} {d : Draft} {fdt : HostBuf}

/-- Only the header, the blocks in use and what is behind the buffer matter. -/
theorem Writing.congr (h : Writing host flags size d fdt) {fdt' : HostBuf}
    (hhdr : ∀ k, fdtGetHeader fdt' k = fdtGetHeader fdt k)
    (hlow : ∀ i, fdtHdrsize ≤ i → i < fdtStruct + callsSize d.calls → fdt'.data i = fdt.data i)
    (hhigh : ∀ i, size - d.tab.length ≤ i → fdt'.data i = fdt.data i) :
    Writing host flags size d fdt' where
  sized := ⟨(hhdr _).trans h.sized.totalsize, (hhdr _).trans h.sized.offDtStruct,
    (hhdr _).trans h.sized.sizeDtStruct, (hhdr _).trans h.sized.version, h.sized.fits,
    h.sized.small⟩
  magic := (hhdr _).trans h.magic
  offDtStrings := (hhdr _).trans h.offDtStrings
  offMemRsvmap := (hhdr _).trans h.offMemRsvmap
  lastCompVersion := (hhdr _).trans h.lastCompVersion
  sizeDtStrings := (hhdr _).trans h.sizeDtStrings
  space := h.space
  reserve := by
    rw [← h.reserve]
    exact read_congr fun i hi => hlow _ (by omega) (by simp only [fdtHdrsize, fdtStruct]; omega)
  calls := h.calls.congr
    (fun i hi => (hlow _ (by simp only [fdtHdrsize, fdtStruct]; omega) (by omega)).symm)
    fun _ _ => id
  strings := Eq.trans (readAt_congr fun i _ => hhigh _ (by omega)) h.strings
  outside := fun i hi => (hhigh i (by omega)).trans (h.outside i hi)

/-- A string below the table is a part of it once the header counts it. -/
theorem Writing.addString (h : Writing host flags size d fdt) (s : CString)
    (hroom : d.space + (s.length + 1) ≤ size) :
    Writing host flags size ⟨d.calls, s.bytes ++ d.tab⟩
      (fdtSetHeader (fdt.write (size - (d.tab.length + (s.length + 1))) s.bytes) .sizeDtStrings
        (BitVec.ofNat 32 (d.tab.length + (s.length + 1)))) := by
  have hspace : fdtStruct + callsSize d.calls + d.tab.length + (s.length + 1) ≤ size := hroom
  have hstruct : fdtStruct = 64 := rfl
  have hhdrsize : fdtHdrsize = 48 := rfl
  have hlen : (s.bytes ++ d.tab).length = s.length + 1 + d.tab.length := by
    rw [List.length_append, s.bytes_length]
  have hhdr : ∀ k, k ≠ .sizeDtStrings → fdtGetHeader
      (fdtSetHeader (fdt.write (size - (d.tab.length + (s.length + 1))) s.bytes) .sizeDtStrings
        (BitVec.ofNat 32 (d.tab.length + (s.length + 1)))) k = fdtGetHeader fdt k := by
    intro k hk
    rw [fdtGetHeader_set_ne _ hk.symm, fdtGetHeader_write _ (by omega)]
  have hdata : ∀ i, 40 ≤ i → (i < size - (d.tab.length + (s.length + 1)) ∨
      size - d.tab.length ≤ i) → (fdtSetHeader (fdt.write (size - (d.tab.length + (s.length + 1)))
        s.bytes) .sizeDtStrings (BitVec.ofNat 32 (d.tab.length + (s.length + 1)))).data i
          = fdt.data i := by
    intro i hi hout
    rw [fdtSetHeader_data _ _ _ hi, write_outside _ _ _ (by rw [s.bytes_length]; omega)]
  exact
    { sized := ⟨(hhdr _ (by decide)).trans h.sized.totalsize,
        (hhdr _ (by decide)).trans h.sized.offDtStruct,
        (hhdr _ (by decide)).trans h.sized.sizeDtStruct,
        (hhdr _ (by decide)).trans h.sized.version, h.sized.fits, h.sized.small⟩
      magic := (hhdr _ (by decide)).trans h.magic
      offDtStrings := (hhdr _ (by decide)).trans h.offDtStrings
      offMemRsvmap := (hhdr _ (by decide)).trans h.offMemRsvmap
      lastCompVersion := (hhdr _ (by decide)).trans h.lastCompVersion
      sizeDtStrings := by
        rw [fdtGetHeader_set]
        congr 1
        simp only
        omega
      space := by
        simp only [Draft.space]
        omega
      reserve := by
        rw [← h.reserve]
        exact read_congr fun i hi => hdata _ (by omega) (by omega)
      calls := h.calls.congr (fun i hi => (hdata _ (by omega) (by omega)).symm)
        fun _ _ hn => hn.append _
      strings := by
        simp only [hlen]
        rw [HostBuf.read, readAt_add]
        congr 1
        · -- the new string
          have hself :=
            readAt_writeAt_self fdt.data (size - (d.tab.length + (s.length + 1))) s.bytes
          rw [s.bytes_length] at hself
          refine Eq.trans (readAt_congr fun i hi => ?_) hself
          rw [show size - (s.length + 1 + d.tab.length) + i
            = size - (d.tab.length + (s.length + 1)) + i by omega]
          exact fdtSetHeader_data _ _ _ (by omega)
        · rw [show size - (s.length + 1 + d.tab.length) + (s.length + 1) = size - d.tab.length by
            omega]
          refine Eq.trans (readAt_congr fun i hi => ?_) h.strings
          exact hdata _ (by omega) (Or.inr (by omega))
      outside := fun i hi => (hdata i (by omega) (Or.inr (by omega))).trans (h.outside i hi) }

/-- A call behind the structure block is a part of it once the header counts it. -/
theorem Writing.addCall (h : Writing host flags size d fdt) {fdt' : HostBuf} (t : FdtCall)
    (hroom : d.space + t.size ≤ size)
    (hhdr : ∀ k, k ≠ .sizeDtStruct → fdtGetHeader fdt' k = fdtGetHeader fdt k)
    (hsize : fdtGetHeader fdt' .sizeDtStruct = BitVec.ofNat 32 (callsSize d.calls + t.size))
    (hdata : ∀ i, 40 ≤ i → (i < fdtStruct + callsSize d.calls ∨
      fdtStruct + callsSize d.calls + t.size ≤ i) → fdt'.data i = fdt.data i)
    (ht : t.At (BackName d.tab) fdt' (fdtStruct + callsSize d.calls)) :
    Writing host flags size ⟨d.calls ++ [t], d.tab⟩ fdt' := by
  have hspace : fdtStruct + callsSize d.calls + d.tab.length + t.size ≤ size := hroom
  have hstruct : fdtStruct = 64 := rfl
  have hhdrsize : fdtHdrsize = 48 := rfl
  have hcalls : callsSize (d.calls ++ [t]) = callsSize d.calls + t.size := by simp
  exact
    { sized := ⟨(hhdr _ (by decide)).trans h.sized.totalsize,
        (hhdr _ (by decide)).trans h.sized.offDtStruct, by rw [hsize, hcalls],
        (hhdr _ (by decide)).trans h.sized.version, by simp only [hcalls]; omega, h.sized.small⟩
      magic := (hhdr _ (by decide)).trans h.magic
      offDtStrings := (hhdr _ (by decide)).trans h.offDtStrings
      offMemRsvmap := (hhdr _ (by decide)).trans h.offMemRsvmap
      lastCompVersion := (hhdr _ (by decide)).trans h.lastCompVersion
      sizeDtStrings := (hhdr _ (by decide)).trans h.sizeDtStrings
      space := by
        simp only [Draft.space, hcalls]
        omega
      reserve := by
        rw [← h.reserve]
        exact read_congr fun i hi => hdata _ (by omega) (Or.inl (by omega))
      calls := by
        rw [callsAt_append]
        refine ⟨h.calls.congr (fun i hi => (hdata _ (by omega) (Or.inl (by omega))).symm)
          fun _ _ => id, ht, trivial⟩
      strings := by
        refine Eq.trans (readAt_congr fun i hi => ?_) h.strings
        simp only at hi ⊢
        exact hdata _ (by omega) (Or.inr (by omega))
      outside := fun i hi => (hdata i (by omega) (Or.inr (by omega))).trans (h.outside i hi) }

/-! ## The parts of a call -/

/-- A buffer that is being written passes the probe of the state. -/
theorem Writing.probe (h : Writing host flags size d fdt) (assumePerfect : Bool) :
    fdtSwProbeStruct assumePerfect fdt = none := by
  have hmagic : fdtSwMagic ≠ fdtMagic := by decide
  simp [fdtSwProbeStruct, fdtSwProbe, h.magic, hmagic, h.offDtStrings, h.sized.totalsize]

/-- `fdt_grab_space_` gives what is behind the structure block, when there is room. -/
theorem Writing.grab (h : Writing host flags size d fdt) (len : Nat) :
    fdtGrabSpace fdt len
      = if d.space + len ≤ size then
          some (fdtSetHeader fdt .sizeDtStruct (BitVec.ofNat 32 (callsSize d.calls + len)),
            fdtStruct + callsSize d.calls)
        else none := by
  have hspace : fdtStruct + callsSize d.calls + d.tab.length ≤ size := h.space
  have hsmall := h.sized.small
  have hstruct : fdtStruct = 64 := rfl
  have hd : d.space = fdtStruct + callsSize d.calls + d.tab.length := rfl
  have hleft : (BitVec.ofNat 32 size - BitVec.ofNat 32 fdtStruct
      - BitVec.ofNat 32 d.tab.length).toNat = size - fdtStruct - d.tab.length := by
    rw [BitVec.toNat_sub_of_le, BitVec.toNat_sub_of_le, toNat_ofNat_word (by omega),
      toNat_ofNat_word (by omega), toNat_ofNat_word (by omega)]
    · exact (ofNat_le_iff (by omega) (by omega)).mpr (by omega)
    · rw [BitVec.le_def, BitVec.toNat_sub_of_le, toNat_ofNat_word (by omega),
        toNat_ofNat_word (by omega), toNat_ofNat_word (by omega)]
      · omega
      · exact (ofNat_le_iff (by omega) (by omega)).mpr (by omega)
  unfold fdtGrabSpace
  simp only [h.sized.totalsize, h.sized.offDtStruct, h.sized.sizeDtStruct, h.sizeDtStrings, hleft]
  rw [toNat_ofNat_word (by omega), toNat_ofNat_word (by omega)]
  by_cases hle : d.space + len ≤ size
  · rw [if_neg (by omega), if_pos hle]
  · rw [if_pos (by omega), if_neg hle]

/-- `fdt_add_string_` puts the string below the table, when there is room. -/
theorem Writing.fdtAddString_eq (h : Writing host flags size d fdt) (s : CString)
    (hs : s.length < fdtStruct) :
    fdtAddString fdt s
      = if d.space + (s.length + 1) ≤ size then
          (fdtSetHeader (fdt.write (size - (d.tab.length + (s.length + 1))) s.bytes) .sizeDtStrings
            (BitVec.ofNat 32 (d.tab.length + (s.length + 1))),
            -BitVec.ofNat 32 (d.tab.length + (s.length + 1)))
        else (fdt, 0#32) := by
  have hspace : fdtStruct + callsSize d.calls + d.tab.length ≤ size := h.space
  have hsmall := h.sized.small
  have hstruct : fdtStruct = 64 := rfl
  have hd : d.space = fdtStruct + callsSize d.calls + d.tab.length := rfl
  have hsub : BitVec.ofNat 32 size - BitVec.ofNat 32 (d.tab.length + (s.length + 1))
      = BitVec.ofNat 32 (size - (d.tab.length + (s.length + 1))) := by
    apply BitVec.eq_of_toNat_eq
    rw [BitVec.toNat_sub_of_le, toNat_ofNat_word (by omega), toNat_ofNat_word (by omega),
      toNat_ofNat_word (by omega)]
    exact (ofNat_le_iff (by omega) (by omega)).mpr (by omega)
  unfold fdtAddString
  simp only [h.sized.totalsize, h.sized.offDtStruct, h.sized.sizeDtStruct, h.sizeDtStrings,
    ofNat_add_ofNat, hsub, ofNat_lt_iff (m := size - (d.tab.length + (s.length + 1)))
      (n := fdtStruct + callsSize d.calls) (by omega) (by omega)]
  rw [toNat_ofNat_word (by omega), toNat_ofNat_word (by omega)]
  by_cases hle : d.space + (s.length + 1) ≤ size
  · rw [if_neg (by omega), if_pos hle, writeBefore_of_le _ _ (by omega)]
  · rw [if_pos (by omega), if_neg hle]

/-- `fdt_find_string_` finds what the table has. -/
theorem Writing.find (h : Writing host flags size d fdt) (s : CString) :
    fdtFindString fdt (size - d.tab.length) d.tab.length s = tabFind d.tab s := by
  have hspace : fdtStruct + callsSize d.calls + d.tab.length ≤ size := h.space
  unfold fdtFindString tabFind
  apply List.find?_congr
  intro i hi
  have hi := List.mem_range.mp hi
  have hread : fdt.read (size - d.tab.length + i) (s.length + 1)
      = (d.tab.drop i).take (s.length + 1) := by
    conv => rhs; rw [← h.strings]
    exact (take_drop_readAt _ _ (by omega)).symm
  have hlast : fdt.read (size - d.tab.length + i) (s.length + 1)
      = fdt.read (size - d.tab.length + i) s.length
        ++ [fdt.data (size - d.tab.length + i + s.length)] := readAt_add _ _ _ 1
  rw [tabHas, ← hread, hlast, CString.bytes, ← Bool.decide_and, decide_eq_decide]
  constructor
  · rintro ⟨h1, h2⟩
    rw [h1, h2]
  · intro heq
    have hparts := List.append_inj heq (by simp [HostBuf.read, CString.length])
    exact ⟨hparts.1, List.singleton_inj.mp hparts.2⟩

/-! ## Calls -/

/-- The names of properties that are shorter than the header and the reserve map. No standard name
is as long; a longer one can pass the test of `fdt_add_string_` without room for it. -/
def FdtCall.Short : FdtCall → Prop
  | property name _ => name.length < fdtStruct
  | _ => True

instance : DecidablePred FdtCall.Short := fun t => by
  cases t <;> (unfold FdtCall.Short; infer_instance)

/-- The writer shares names unless the flag forbids it. -/
def fdtDedup (flags : BitVec 32) : Bool := flags &&& fdtCreateFlagNoNameDedup == 0#32

/-- What a call does to a buffer that holds a draft. -/
def Extends (host : HostBuf) (flags : BitVec 32) (size : Nat) (d : Draft) (t : FdtCall)
    (r : HostBuf × Option FdtErr) : Prop :=
  if (d.add (fdtDedup flags) t).space ≤ size then
    r.2 = none ∧ Writing host flags size (d.add (fdtDedup flags) t) r.1
  else r.2 = some .noSpace ∧ Writing host flags size d r.1

theorem Writing.beginNode (h : Writing host flags size d fdt) (assumePerfect : Bool)
    (name : CString) :
    Extends host flags size d (.beginNode name) (fdtBeginNode assumePerfect fdt name) := by
  have halign := le_fdtTagAlign (name.length + 1)
  have hadd : (d.add (fdtDedup flags) (.beginNode name)).space
      = d.space + (4 + fdtTagAlign (name.length + 1)) := by
    simp only [Draft.space, Draft.add, callsSize_append, callsSize_cons, callsSize_nil,
      FdtCall.size]
    omega
  have hstruct : fdtStruct = 64 := rfl
  unfold Extends fdtBeginNode
  rw [hadd, h.probe]
  simp only
  rw [h.grab]
  by_cases hle : d.space + (4 + fdtTagAlign (name.length + 1)) ≤ size
  · rw [if_pos hle, if_pos hle]
    refine ⟨rfl, h.addCall (.beginNode name) hle ?_ ?_ ?_ ⟨?_, ?_⟩⟩
    · intro k hk
      rw [fdtGetHeader_write _ (by omega), fdtGetHeader_st _ (by omega),
        fdtGetHeader_set_ne _ hk.symm]
    · rw [fdtGetHeader_write _ (by omega), fdtGetHeader_st _ (by omega), fdtGetHeader_set]
      rfl
    · intro i hi hout
      simp only [FdtCall.size] at hout
      rw [write_outside _ _ _ (by rw [name.bytes_length]; omega),
        fdt32St_outside _ _ _ (by omega), fdtSetHeader_data _ _ _ hi]
    · rw [fdt32Ld_write _ _ (Or.inl (Nat.le_refl _)), fdt32Ld_fdt32St]
    · have := read_write (fdt32St (fdtSetHeader fdt .sizeDtStruct (BitVec.ofNat 32
        (callsSize d.calls + (4 + fdtTagAlign (name.length + 1))))) (fdtStruct + callsSize d.calls)
          fdtBeginNodeTag) (fdtStruct + callsSize d.calls + 4) name.bytes
      rwa [name.bytes_length] at this
  · rw [if_neg hle, if_neg hle]
    exact ⟨rfl, h⟩

theorem Writing.endNode (h : Writing host flags size d fdt) (assumePerfect : Bool) :
    Extends host flags size d .endNode (fdtEndNode assumePerfect fdt) := by
  have hadd : (d.add (fdtDedup flags) .endNode).space = d.space + 4 := by
    simp only [Draft.space, Draft.add, callsSize_append, callsSize_cons, callsSize_nil,
      FdtCall.size]
    omega
  have hstruct : fdtStruct = 64 := rfl
  unfold Extends fdtEndNode
  rw [hadd, h.probe]
  simp only
  rw [h.grab]
  by_cases hle : d.space + 4 ≤ size
  · rw [if_pos hle, if_pos hle]
    refine ⟨rfl, h.addCall .endNode hle ?_ ?_ ?_ ?_⟩
    · intro k hk
      rw [fdtGetHeader_st _ (by omega), fdtGetHeader_set_ne _ hk.symm]
    · rw [fdtGetHeader_st _ (by omega), fdtGetHeader_set]
      rfl
    · intro i hi hout
      simp only [FdtCall.size] at hout
      rw [fdt32St_outside _ _ _ (by omega), fdtSetHeader_data _ _ _ hi]
    · exact fdt32Ld_fdt32St _ _ _
  · rw [if_neg hle, if_neg hle]
    exact ⟨rfl, h⟩

/-! ## Properties -/

theorem neg_ofNat_ne_zero {k : Nat} (h0 : 0 < k) (hk : k < 2 ^ 32) : -BitVec.ofNat 32 k ≠ 0#32 := by
  intro h
  have hzero : BitVec.ofNat 32 k = 0#32 := by simpa using h
  have := congrArg BitVec.toNat hzero
  rw [toNat_ofNat_word hk] at this
  simp at this
  omega

/-- A property behind the structure block, whose name is in the table. -/
theorem Writing.addProperty (h : Writing host flags size d fdt) {off : BitVec 32} {name : CString}
    (hoff : BackName d.tab off name) (val : List Byte)
    (hle : d.space + (12 + fdtTagAlign val.length) ≤ size) :
    Writing host flags size ⟨d.calls ++ [.property name val], d.tab⟩
      ((fdt32St (fdt32St (fdt32St
          (fdtSetHeader fdt .sizeDtStruct
            (BitVec.ofNat 32 (callsSize d.calls + (12 + fdtTagAlign val.length))))
          (fdtStruct + callsSize d.calls) fdtPropTag)
        (fdtStruct + callsSize d.calls + 8) off)
        (fdtStruct + callsSize d.calls + 4) (BitVec.ofNat 32 val.length)).write
        (fdtStruct + callsSize d.calls + 12) val) := by
  have halign := le_fdtTagAlign val.length
  have hstruct : fdtStruct = 64 := rfl
  refine h.addCall (.property name val) hle ?_ ?_ ?_ ⟨?_, ?_, ?_, read_write _ _ _⟩
  · intro k hk
    rw [fdtGetHeader_write _ (by omega), fdtGetHeader_st _ (by omega), fdtGetHeader_st _ (by omega),
      fdtGetHeader_st _ (by omega), fdtGetHeader_set_ne _ hk.symm]
  · rw [fdtGetHeader_write _ (by omega), fdtGetHeader_st _ (by omega), fdtGetHeader_st _ (by omega),
      fdtGetHeader_st _ (by omega), fdtGetHeader_set]
    rfl
  · intro i hi hout
    simp only [FdtCall.size] at hout
    rw [write_outside _ _ _ (by omega), fdt32St_outside _ _ _ (by omega),
      fdt32St_outside _ _ _ (by omega), fdt32St_outside _ _ _ (by omega),
      fdtSetHeader_data _ _ _ hi]
  · rw [fdt32Ld_write _ _ (by omega), fdt32Ld_fdt32St_apart _ _ (by omega),
      fdt32Ld_fdt32St_apart _ _ (by omega), fdt32Ld_fdt32St]
  · rw [fdt32Ld_write _ _ (by omega), fdt32Ld_fdt32St]
  · rw [fdt32Ld_write _ _ (by omega), fdt32Ld_fdt32St_apart _ _ (by omega), fdt32Ld_fdt32St]
    exact hoff

/-- Taking the last string off again restores the draft. -/
theorem Writing.delString (h : Writing host flags size d fdt) (s : CString)
    (hroom : d.space + (s.length + 1) ≤ size) :
    Writing host flags size d
      (fdtDelLastString
        (fdtSetHeader (fdt.write (size - (d.tab.length + (s.length + 1))) s.bytes) .sizeDtStrings
          (BitVec.ofNat 32 (d.tab.length + (s.length + 1)))) s) := by
  have hspace : fdtStruct + callsSize d.calls + d.tab.length + (s.length + 1) ≤ size := hroom
  have hstruct : fdtStruct = 64 := rfl
  have hhdrsize : fdtHdrsize = 48 := rfl
  have hsub : BitVec.ofNat 32 (d.tab.length + (s.length + 1)) - BitVec.ofNat 32 (s.length + 1)
      = BitVec.ofNat 32 d.tab.length := by
    rw [← ofNat_add_ofNat]
    bv_omega
  unfold fdtDelLastString
  rw [fdtGetHeader_set, hsub]
  apply h.congr
  · intro k
    by_cases hk : k = .sizeDtStrings
    · rw [hk, fdtGetHeader_set, h.sizeDtStrings]
    · rw [fdtGetHeader_set_ne _ (Ne.symm hk), fdtGetHeader_set_ne _ (Ne.symm hk),
        fdtGetHeader_write _ (by omega)]
  · intro i hi hlt
    rw [fdtSetHeader_data _ _ _ (by omega), fdtSetHeader_data _ _ _ (by omega),
      write_outside _ _ _ (Or.inl (by omega))]
  · intro i hi
    rw [fdtSetHeader_data _ _ _ (by omega), fdtSetHeader_data _ _ _ (by omega),
      write_outside _ _ _ (Or.inr (by rw [s.bytes_length]; omega))]

/-- The name of a property gets into the table, and out again where the property has no room. -/
theorem Writing.nameoff (h : Writing host flags size d fdt) (name : CString)
    (hname : name.length < fdtStruct) :
    if fdtStruct + callsSize d.calls + (tabAdd (fdtDedup flags) d.tab name).length ≤ size then
      ∃ fdt1 off allocated, fdtNameoff fdt name = (fdt1, off, allocated) ∧ off ≠ 0#32 ∧
        BackName (tabAdd (fdtDedup flags) d.tab name) off name ∧
        Writing host flags size ⟨d.calls, tabAdd (fdtDedup flags) d.tab name⟩ fdt1 ∧
        Writing host flags size d (if allocated then fdtDelLastString fdt1 name else fdt1)
    else fdtNameoff fdt name = (fdt, 0#32, true) := by
  have hspace : fdtStruct + callsSize d.calls + d.tab.length ≤ size := h.space
  have hsmall := h.sized.small
  have hstruct : fdtStruct = 64 := rfl
  have hd : d.space = fdtStruct + callsSize d.calls + d.tab.length := rfl
  have hlen : (name.bytes ++ d.tab).length = name.length + 1 + d.tab.length := by
    rw [List.length_append, name.bytes_length]
  -- the name is added below the table
  have hnew : (if d.space + (name.length + 1) ≤ size then
      ∃ fdt1 off, fdtAddString fdt name = (fdt1, off) ∧ off ≠ 0#32 ∧
        BackName (name.bytes ++ d.tab) off name ∧
        Writing host flags size ⟨d.calls, name.bytes ++ d.tab⟩ fdt1 ∧
        Writing host flags size d (fdtDelLastString fdt1 name)
      else fdtAddString fdt name = (fdt, 0#32)) := by
    rw [h.fdtAddString_eq name hname]
    split
    · rename_i hroom
      refine ⟨_, _, rfl, neg_ofNat_ne_zero (by omega) (by omega),
        ⟨d.tab.length + (name.length + 1), by omega, by omega, rfl, ?_⟩, h.addString name hroom,
        h.delString name hroom⟩
      rw [hlen, show name.length + 1 + d.tab.length - (d.tab.length + (name.length + 1)) = 0 by
        omega]
      exact tabHas_self name d.tab
    · rfl
  have hadded : ∀ r : HostBuf × BitVec 32 × Bool,
      r = ((fdtAddString fdt name).1, (fdtAddString fdt name).2, true) →
      if fdtStruct + callsSize d.calls + (name.bytes ++ d.tab).length ≤ size then
        ∃ fdt1 off allocated, r = (fdt1, off, allocated) ∧ off ≠ 0#32 ∧
          BackName (name.bytes ++ d.tab) off name ∧
          Writing host flags size ⟨d.calls, name.bytes ++ d.tab⟩ fdt1 ∧
          Writing host flags size d (if allocated then fdtDelLastString fdt1 name else fdt1)
      else r = (fdt, 0#32, true) := by
    rintro r rfl
    by_cases hroom : d.space + (name.length + 1) ≤ size
    · rw [if_pos hroom] at hnew
      obtain ⟨fdt1, off, heq, hoff, hback, hw, hdel⟩ := hnew
      rw [if_pos (by omega), heq]
      exact ⟨fdt1, off, true, rfl, hoff, hback, hw, hdel⟩
    · rw [if_neg hroom] at hnew
      rw [if_neg (by omega), hnew]
  unfold fdtNameoff tabAdd
  rw [h.lastCompVersion]
  cases hf : fdtDedup flags with
  | false =>
      have hflag : (flags &&& fdtCreateFlagNoNameDedup != 0#32) = true := by
        simpa [fdtDedup, bne] using hf
      rw [hflag]
      exact hadded _ rfl
  | true =>
      have hflag : (flags &&& fdtCreateFlagNoNameDedup != 0#32) = false := by
        simpa [fdtDedup, bne] using hf
      rw [hflag, if_neg Bool.false_ne_true, Bool.true_and]
      unfold fdtFindAddString
      simp only [h.sized.totalsize, h.sizeDtStrings]
      rw [toNat_ofNat_word (by omega), toNat_ofNat_word (by omega), h.find]
      cases hfind : tabFind d.tab name with
      | none =>
          rw [Option.isSome_none, if_neg Bool.false_ne_true]
          exact hadded _ rfl
      | some p =>
          have hmem := List.mem_range.mp (List.mem_of_find?_eq_some hfind)
          have hoff : BitVec.ofNat 32 p - BitVec.ofNat 32 d.tab.length
              = -BitVec.ofNat 32 (d.tab.length - p) := by
            obtain ⟨k, hk⟩ : ∃ k, d.tab.length = p + k := ⟨d.tab.length - p, by omega⟩
            rw [hk, show p + k - p = k by omega, ← ofNat_add_ofNat]
            bv_omega
          rw [Option.isSome_some, if_pos rfl, if_pos hspace]
          refine ⟨fdt, -BitVec.ofNat 32 (d.tab.length - p), false, by simp only [hoff],
            neg_ofNat_ne_zero (by omega) (by omega),
            ⟨d.tab.length - p, by omega, by omega, rfl, ?_⟩, h, h⟩
          rw [show d.tab.length - (d.tab.length - p) = p by omega]
          exact List.find?_some hfind

theorem Writing.property (h : Writing host flags size d fdt) (assumePerfect : Bool)
    (name : CString) (val : List Byte) (hname : name.length < fdtStruct) :
    Extends host flags size d (.property name val) (fdtProperty assumePerfect fdt name val) := by
  have hstruct : fdtStruct = 64 := rfl
  have hadd : (d.add (fdtDedup flags) (.property name val)).space
      = Draft.space ⟨d.calls, tabAdd (fdtDedup flags) d.tab name⟩
        + (12 + fdtTagAlign val.length) := by
    simp only [Draft.space, Draft.add, callsSize_append, callsSize_cons, callsSize_nil,
      FdtCall.size]
    omega
  have hspace : Draft.space ⟨d.calls, tabAdd (fdtDedup flags) d.tab name⟩
      = fdtStruct + callsSize d.calls + (tabAdd (fdtDedup flags) d.tab name).length := rfl
  have hoffset := h.nameoff name hname
  unfold Extends fdtProperty fdtPropertyPlaceholder
  rw [hadd, h.probe]
  simp only
  split at hoffset
  · obtain ⟨fdt1, off, allocated, heq, hoff, hback, hw, hdel⟩ := hoffset
    rw [heq]
    simp only
    rw [if_neg hoff, hw.grab]
    by_cases hle : Draft.space ⟨d.calls, tabAdd (fdtDedup flags) d.tab name⟩
        + (12 + fdtTagAlign val.length) ≤ size
    · rw [if_pos hle, if_pos hle]
      exact ⟨rfl, hw.addProperty hback val hle⟩
    · rw [if_neg hle, if_neg hle]
      exact ⟨rfl, hdel⟩
  · rw [hoffset, if_neg (by omega)]
    simp only [if_true]
    exact ⟨trivial, h⟩

/-- **Every call extends the draft or leaves it as it is.** -/
theorem Writing.run (h : Writing host flags size d fdt) (assumePerfect : Bool) {t : FdtCall}
    (ht : t.Short) : Extends host flags size d t (t.run assumePerfect fdt) := by
  cases t with
  | beginNode name => exact h.beginNode assumePerfect name
  | property name val => exact h.property assumePerfect name val ht
  | endNode => exact h.endNode assumePerfect

end RV640
