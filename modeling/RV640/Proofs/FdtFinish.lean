import RV640.Proofs.FdtWrite

set_option autoImplicit false

/-! # A device tree is read as it was written

`fdt_create` and `fdt_finish_reservemap` start an empty draft, the calls extend it, and `fdt_finish`
turns it into a complete blob: the strings move behind the structure block and the walk makes the
offset of every property one into the moved table. Reading the blob gives the calls back.
-/

namespace RV640

open Bits Bytes

variable {host : HostBuf} {flags : BitVec 32} {size : Nat} {d : Draft} {fdt : HostBuf}

/-! ## The start -/

/-- The flags `fdt_create_with_flags` accepts. -/
def FdtFlagsOk (flags : BitVec 32) : Prop := flags &&& ~~~fdtCreateFlagNoNameDedup = 0#32

/-- A buffer after `fdt_create_with_flags` and `fdt_finish_reservemap`. -/
def fdtStart (assumePerfect : Bool) (buf : HostBuf) (bufsize : Nat) (flags : BitVec 32) :
    HostBuf × Option FdtErr :=
  match fdtCreateWithFlags buf bufsize flags with
  | (fdt, some err) => (fdt, some err)
  | (fdt, none) => fdtFinishReservemap assumePerfect fdt

theorem clear_data (buf : HostBuf) {n i : Nat} (h : i < n) :
    (buf.write 0 (List.replicate n 0#8)).data i = 0#8 := by
  have := writeAt_inside buf.data 0 (List.replicate n 0#8) (i := i) (by simpa using h)
  rw [Nat.zero_add, List.getElem_replicate] at this
  exact this

theorem fdtGetHeader_clear (buf : HostBuf) {n : Nat} (h : 40 ≤ n) (k : FdtField) :
    fdtGetHeader (buf.write 0 (List.replicate n 0#8)) k = 0#32 := by
  have hzero : (⟨fun _ => 0#8⟩ : HostBuf).read 0 4 = [0#8, 0#8, 0#8, 0#8] := rfl
  have := k.offset_add_le
  calc fdtGetHeader (buf.write 0 (List.replicate n 0#8)) k
      = fdt32Ld ⟨fun _ => 0#8⟩ 0 := fdt32Ld_congr fun i hi => clear_data buf (by omega)
    _ = 0#32 := by decide

/-- `fdt_create_with_flags` leaves the header of an empty tree and nothing else in the buffer. -/
theorem fdtCreateWithFlags_eq (buf : HostBuf) (hflags : FdtFlagsOk flags)
    (hsize : fdtStruct ≤ size) :
    ∃ fdt, fdtCreateWithFlags buf size flags = (fdt, none) ∧
      fdtGetHeader fdt .magic = fdtSwMagic ∧ fdtGetHeader fdt .version = fdtLastSupportedVersion ∧
      fdtGetHeader fdt .lastCompVersion = flags ∧
      fdtGetHeader fdt .totalsize = BitVec.ofNat 32 size ∧
      fdtGetHeader fdt .offMemRsvmap = BitVec.ofNat 32 fdtHdrsize ∧
      fdtGetHeader fdt .offDtStruct = BitVec.ofNat 32 fdtHdrsize ∧
      fdtGetHeader fdt .offDtStrings = 0#32 ∧ fdtGetHeader fdt .sizeDtStruct = 0#32 ∧
      fdtGetHeader fdt .sizeDtStrings = 0#32 ∧ ∀ i, size ≤ i → fdt.data i = buf.data i := by
  have hstruct : fdtStruct = 64 := rfl
  have hhdrsize : fdtHdrsize = 48 := rfl
  have hclear := fun k => fdtGetHeader_clear buf (n := size) (by omega) k
  unfold fdtCreateWithFlags
  rw [if_neg (by omega), hflags]
  refine ⟨_, rfl, ?_⟩
  refine ⟨by simp, by simp, by simp, by simp, by simp, by simp, by simp, by simp [hclear],
    by simp [hclear], fun i hi => ?_⟩
  have hi40 : 40 ≤ i := by omega
  simp only [fdtSetHeader_data _ _ _ hi40]
  exact write_outside _ _ _ (Or.inr (by simpa using hi))

theorem writing_start (assumePerfect : Bool) (buf : HostBuf) (hflags : FdtFlagsOk flags)
    (hsize : fdtStruct ≤ size) (hsmall : size < 2 ^ 31) :
    ∃ fdt, fdtStart assumePerfect buf size flags = (fdt, none) ∧
      Writing buf flags size ⟨[], []⟩ fdt := by
  have hstruct : fdtStruct = 64 := rfl
  have hhdrsize : fdtHdrsize = 48 := rfl
  have hne : fdtSwMagic ≠ fdtMagic := by decide
  obtain ⟨fdt, hcreate, hmagic, hversion, hlast, htotal, hrsv, hoff, hstrings, hstructsize,
    hstrsize, hout⟩ := fdtCreateWithFlags_eq buf hflags hsize
  have hprobe : fdtSwProbeMemrsv assumePerfect fdt = none := by
    simp [fdtSwProbeMemrsv, fdtSwProbe, hmagic, hne, hstrings]
  unfold fdtStart fdtFinishReservemap fdtAddReservemapEntry
  rw [hcreate]
  simp only [hprobe, htotal, hoff]
  rw [toNat_ofNat_word (by omega), toNat_ofNat_word (by omega), if_neg (by omega)]
  refine ⟨_, rfl, ?_⟩
  -- the entry of the reserve map is behind the header
  have hhdr : ∀ k, fdtGetHeader ((fdt.write fdtHdrsize (beBytes 8 0#64)).write (fdtHdrsize + 8)
      (beBytes 8 0#64)) k = fdtGetHeader fdt k := fun k => by
    rw [fdtGetHeader_write _ (by omega), fdtGetHeader_write _ (by omega)]
  refine
    { sized := ⟨?_, ?_, ?_, ?_, by simpa using hsize, hsmall⟩
      magic := by simp [hhdr, hmagic]
      offDtStrings := by simp [hhdr, htotal]
      offMemRsvmap := by simp [hhdr, hrsv]
      lastCompVersion := by simp [hhdr, hlast]
      sizeDtStrings := by simp [hhdr, hstrsize]
      space := by simpa [Draft.space] using hsize
      reserve := ?_
      calls := trivial
      strings := rfl
      outside := fun i hi => ?_ }
  · simp [hhdr, htotal]
  · simp [hhdrsize, hstruct]
  · simp [hhdr, hstructsize]
  · simp [hhdr, hversion]
  · -- two entries of zeros, one behind the other
    have hzero : List.replicate 16 0#8 = beBytes 8 0#64 ++ beBytes 8 0#64 := by decide
    have hrow := fun (g : HostBuf) (p : Nat) => read_write g p (beBytes 8 0#64)
    simp only [beBytes_length] at hrow
    have hlow : HostBuf.read ((fdt.write fdtHdrsize (beBytes 8 0#64)).write (fdtHdrsize + 8)
        (beBytes 8 0#64)) fdtHdrsize 8 = beBytes 8 0#64 :=
      Eq.trans (read_congr fun i hi => write_outside _ _ _ (Or.inl (by omega)))
        (hrow fdt fdtHdrsize)
    have hboth : HostBuf.read ((fdt.write fdtHdrsize (beBytes 8 0#64)).write (fdtHdrsize + 8)
        (beBytes 8 0#64)) fdtHdrsize (8 + 8) = beBytes 8 0#64 ++ beBytes 8 0#64 :=
      (readAt_add _ _ 8 8).trans (congrArg₂ (· ++ ·) hlow (hrow _ (fdtHdrsize + 8)))
    rw [hzero, ← hboth]
    apply read_congr
    intro i hi
    rw [fdtSetHeader_data _ _ _ (by omega), fdtSetHeader_data _ _ _ (by omega)]
  · rw [fdtSetHeader_data _ _ _ (by omega), fdtSetHeader_data _ _ _ (by omega),
      write_outside _ _ _ (Or.inr (by rw [beBytes_length]; omega)),
      write_outside _ _ _ (Or.inr (by rw [beBytes_length]; omega))]
    exact hout i hi

/-! ## Calls -/

/-- Some calls, made whatever the ones before return: the buffer and the calls that returned 0. -/
def fdtSession (assumePerfect : Bool) (fdt : HostBuf) : List FdtCall → HostBuf × List FdtCall
  | [] => (fdt, [])
  | t :: ts =>
      match t.run assumePerfect fdt with
      | (fdt, none) =>
          let (fdt, done) := fdtSession assumePerfect fdt ts
          (fdt, t :: done)
      | (fdt, some _) => fdtSession assumePerfect fdt ts

/-- The draft after some calls, of which those that have no room fail. -/
def Draft.addAll (dedup : Bool) (size : Nat) (d : Draft) : List FdtCall → Draft
  | [] => d
  | t :: ts =>
      if (d.add dedup t).space ≤ size then Draft.addAll dedup size (d.add dedup t) ts
      else Draft.addAll dedup size d ts

theorem Writing.session (h : Writing host flags size d fdt) (assumePerfect : Bool)
    {ts : List FdtCall} (hts : ∀ t ∈ ts, t.Short) :
    Writing host flags size (d.addAll (fdtDedup flags) size ts)
        (fdtSession assumePerfect fdt ts).1 ∧
      (d.addAll (fdtDedup flags) size ts).calls
        = d.calls ++ (fdtSession assumePerfect fdt ts).2 := by
  induction ts generalizing d fdt with
  | nil => exact ⟨h, (List.append_nil _).symm⟩
  | cons t ts ih =>
      have hstep := h.run assumePerfect (hts t List.mem_cons_self)
      have hrest := fun t ht => hts t (List.mem_cons_of_mem _ ht)
      unfold Extends at hstep
      unfold fdtSession Draft.addAll
      generalize t.run assumePerfect fdt = r at hstep
      obtain ⟨fdt', err⟩ := r
      split at hstep
      · -- the call extends the draft
        rename_i hroom
        obtain ⟨rfl, hw⟩ := hstep
        obtain ⟨hw', hcalls⟩ := ih hw hrest
        rw [if_pos hroom]
        refine ⟨hw', hcalls.trans ?_⟩
        simp [Draft.add]
      · rename_i hroom
        obtain ⟨rfl, hw⟩ := hstep
        rw [if_neg hroom]
        exact ih hw hrest

/-! ## The walk of `fdt_finish` -/

/-- The offset of a property in the table that has been moved. -/
def FwdName (tab : List Byte) (off : BitVec 32) (name : CString) : Prop :=
  ∃ i, i < tab.length ∧ off = BitVec.ofNat 32 i ∧ tabHas tab name i = true

theorem BackName.forward {tab : List Byte} {off : BitVec 32} {name : CString}
    (h : BackName tab off name) : FwdName tab (off + BitVec.ofNat 32 tab.length) name := by
  obtain ⟨k, hk, hle, rfl, hhas⟩ := h
  refine ⟨tab.length - k, by omega, ?_, hhas⟩
  obtain ⟨n, hn⟩ : ∃ n, tab.length = n + k := ⟨tab.length - k, by omega⟩
  rw [hn, show n + k - k = n by omega, ← ofNat_add_ofNat]
  bv_omega

/-- The buffer while the walk corrects the offsets: `done` is behind it, `rest` before it. -/
structure Correcting (fdt : HostBuf) (size : Nat) (tab : List Byte) (done rest : List FdtCall) :
    Prop where
  sized : FdtSized fdt size (callsSize (done ++ rest) + 4)
  sizeDtStrings : fdtGetHeader fdt .sizeDtStrings = BitVec.ofNat 32 tab.length
  behind : CallsAt (FwdName tab) fdt fdtStruct done
  ahead : CallsAt (BackName tab) fdt (fdtStruct + callsSize done) rest
  fin : fdt32Ld fdt (fdtStruct + callsSize (done ++ rest)) = fdtEndTag

theorem FdtCall.tag_ne_end (t : FdtCall) : t.tag ≠ fdtEndTag := by
  cases t <;> (simp only [FdtCall.tag]; decide)

theorem FdtCall.tag_eq_prop (t : FdtCall) :
    t.tag = fdtPropTag ↔ ∃ name val, t = .property name val := by
  cases t with
  | beginNode name => simp [FdtCall.tag, fdtBeginNodeTag, fdtPropTag]
  | property name val => simp [FdtCall.tag]
  | endNode => simp [FdtCall.tag, fdtEndNodeTag, fdtPropTag]

/-- One step of the walk: the offset of a property counts from the start of the moved table. -/
theorem Correcting.step {tab : List Byte} {done rest : List FdtCall} {t : FdtCall}
    (h : Correcting fdt size tab done (t :: rest)) :
    let p := fdtStruct + callsSize done
    let fdt' := if t.tag = fdtPropTag then
        fdt32St fdt (p + 8) (fdt32Ld fdt (p + 8) + fdtGetHeader fdt .sizeDtStrings)
      else fdt
    Correcting fdt' size tab (done ++ [t]) rest ∧
      ∀ i, (i < p ∨ p + t.size ≤ i) → fdt'.data i = fdt.data i := by
  intro p fdt'
  have hstruct : fdtStruct = 64 := rfl
  have hp : p = fdtStruct + callsSize done := rfl
  have hfour := t.four_le_size
  have happend : done ++ [t] ++ rest = done ++ t :: rest := by simp
  obtain ⟨ht, hrest⟩ := h.ahead
  -- the step writes one word of the call
  have hout : ∀ i, (i < p ∨ p + t.size ≤ i) → fdt'.data i = fdt.data i := by
    intro i hi
    by_cases htag : t.tag = fdtPropTag
    · obtain ⟨name, val, rfl⟩ := t.tag_eq_prop.mp htag
      simp only [FdtCall.size] at hi
      simp only [fdt', htag, if_true]
      exact fdt32St_outside _ _ _ (by omega)
    · simp only [fdt', htag, if_false]
  have hhdr : ∀ k, fdtGetHeader fdt' k = fdtGetHeader fdt k :=
    fdtGetHeader_congr fun i hi => hout i (Or.inl (by omega))
  have ht' : t.At (FwdName tab) fdt' p := by
    cases t with
    | beginNode name => exact ht
    | endNode => exact ht
    | property name val =>
        obtain ⟨htag, hlen, hoff, hval⟩ := ht
        have halign := le_fdtTagAlign val.length
        have hfdt' : fdt' = fdt32St fdt (p + 8)
            (fdt32Ld fdt (p + 8) + fdtGetHeader fdt .sizeDtStrings) := if_pos rfl
        rw [hfdt']
        refine ⟨?_, ?_, ?_, ?_⟩
        · rw [fdt32Ld_fdt32St_apart _ _ (by omega)]
          exact htag
        · rw [fdt32Ld_fdt32St_apart _ _ (by omega)]
          exact hlen
        · rw [fdt32Ld_fdt32St, h.sizeDtStrings]
          exact hoff.forward
        · exact (read_congr fun i hi => fdt32St_outside _ _ _ (by omega)).trans hval
  refine ⟨⟨?_, (hhdr _).trans h.sizeDtStrings, ?_, ?_, ?_⟩, hout⟩
  · rw [happend]
    exact ⟨(hhdr _).trans h.sized.totalsize, (hhdr _).trans h.sized.offDtStruct,
      (hhdr _).trans h.sized.sizeDtStruct, (hhdr _).trans h.sized.version, h.sized.fits,
      h.sized.small⟩
  · rw [callsAt_append]
    refine ⟨h.behind.congr (fun i hi => (hout _ (Or.inl (by omega))).symm) fun _ _ => id, ht',
      trivial⟩
  · rw [callsSize_append, callsSize_cons, callsSize_nil, Nat.add_zero, ← Nat.add_assoc]
    exact hrest.congr (fun i hi => (hout _ (Or.inr (by omega))).symm) fun _ _ => id
  · rw [happend]
    refine (fdt32Ld_congr fun i hi => hout _ (Or.inr ?_)).trans h.fin
    rw [callsSize_append, callsSize_cons]
    omega

/-- The walk ends at the terminator with every offset corrected. -/
theorem Correcting.walk {tab : List Byte} {done rest : List FdtCall}
    (h : Correcting fdt size tab done rest) (assumePerfect : Bool) {fuel : Nat}
    (hfuel : rest.length < fuel) :
    ∃ fdt', fdtCorrectOffsets assumePerfect fuel fdt (BitVec.ofNat 32 (callsSize done))
        = (fdt', BitVec.ofNat 32 (callsSize (done ++ rest) + 4)) ∧
      Correcting fdt' size tab (done ++ rest) [] ∧
      ∀ i, (i < fdtStruct ∨ fdtStruct + callsSize (done ++ rest) ≤ i) →
        fdt'.data i = fdt.data i := by
  have hmod := callsSize_mod done
  induction rest generalizing done fdt fuel with
  | nil =>
      obtain ⟨fuel, rfl⟩ := Nat.exists_eq_succ_of_ne_zero (by omega : fuel ≠ 0)
      have hnext := fdtNextTag_end h.sized assumePerfect (o := callsSize done)
        (by simpa using h.fin) (by simp) hmod
      rw [fdtCorrectOffsets, hnext]
      simp only [if_true, List.append_nil]
      exact ⟨fdt, rfl, by simpa using h, fun _ _ => rfl⟩
  | cons t rest ih =>
      obtain ⟨fuel, rfl⟩ := Nat.exists_eq_succ_of_ne_zero (by omega : fuel ≠ 0)
      have hsize : callsSize (done ++ t :: rest) = callsSize done + t.size + callsSize rest := by
        rw [callsSize_append, callsSize_cons, Nat.add_assoc]
      have hfits := h.sized.fits
      have hsmall := h.sized.small
      have happend : done ++ [t] ++ rest = done ++ t :: rest := by simp
      have hnext := fdtNextTag_call h.sized assumePerfect h.ahead.1 (by omega) hmod
      obtain ⟨hstep, hout⟩ := h.step
      simp only [List.length_cons] at hfuel
      have hfuel' : rest.length < fuel := by omega
      obtain ⟨fdt', hwalk, hdone, hout'⟩ := ih hstep hfuel' (callsSize_mod _)
      rw [happend] at hwalk hdone hout'
      refine ⟨fdt', ?_, hdone, fun i hi => (hout' i hi).trans (hout i (by omega))⟩
      rw [← hwalk, fdtCorrectOffsets, hnext]
      simp only [if_neg t.tag_ne_end, callsSize_append, callsSize_cons, callsSize_nil, Nat.add_zero,
        h.sized.offDtStruct]
      rw [toNat_ofNat_word (by decide), toNat_ofNat_word (by omega)]

/-! ## The complete blob -/

/-- The complete blob of a draft. -/
structure Finished (host : HostBuf) (size : Nat) (d : Draft) (fdt : HostBuf) : Prop where
  sized : FdtSized fdt (d.space + 4) (callsSize d.calls + 4)
  magic : fdtGetHeader fdt .magic = fdtMagic
  offDtStrings : fdtGetHeader fdt .offDtStrings
    = BitVec.ofNat 32 (fdtStruct + callsSize d.calls + 4)
  offMemRsvmap : fdtGetHeader fdt .offMemRsvmap = BitVec.ofNat 32 fdtHdrsize
  lastCompVersion : fdtGetHeader fdt .lastCompVersion = fdtLastCompatibleVersion
  sizeDtStrings : fdtGetHeader fdt .sizeDtStrings = BitVec.ofNat 32 d.tab.length
  reserve : fdt.read fdtHdrsize 16 = List.replicate 16 0#8
  calls : CallsAt (FwdName d.tab) fdt fdtStruct d.calls
  fin : fdt32Ld fdt (fdtStruct + callsSize d.calls) = fdtEndTag
  strings : fdt.read (fdtStruct + callsSize d.calls + 4) d.tab.length = d.tab
  outside : ∀ i, size ≤ i → fdt.data i = host.data i

/-- Only the bytes of the blob matter. -/
theorem Finished.congr (h : Finished host size d fdt) {fdt' : HostBuf}
    (hdata : ∀ i, i < d.space + 4 → fdt'.data i = fdt.data i) : Finished fdt' size d fdt' := by
  have hd : d.space = fdtStruct + callsSize d.calls + d.tab.length := rfl
  have hstruct : fdtStruct = 64 := rfl
  have hhdrsize : fdtHdrsize = 48 := rfl
  have hhdr : ∀ k, fdtGetHeader fdt' k = fdtGetHeader fdt k :=
    fdtGetHeader_congr fun i hi => hdata i (by omega)
  exact
    { sized := ⟨(hhdr _).trans h.sized.totalsize, (hhdr _).trans h.sized.offDtStruct,
        (hhdr _).trans h.sized.sizeDtStruct, (hhdr _).trans h.sized.version, h.sized.fits,
        h.sized.small⟩
      magic := (hhdr _).trans h.magic
      offDtStrings := (hhdr _).trans h.offDtStrings
      offMemRsvmap := (hhdr _).trans h.offMemRsvmap
      lastCompVersion := (hhdr _).trans h.lastCompVersion
      sizeDtStrings := (hhdr _).trans h.sizeDtStrings
      reserve := (read_congr fun i hi => hdata _ (by omega)).trans h.reserve
      calls := h.calls.congr (fun i hi => (hdata _ (by omega)).symm) fun _ _ => id
      fin := (fdt32Ld_congr fun i hi => hdata _ (by omega)).trans h.fin
      strings := (read_congr fun i hi => hdata _ (by omega)).trans h.strings
      outside := fun _ _ => rfl }

/-- The buffer of `fdt_finish` before the walk: the terminator is written and the table moved. -/
theorem Writing.moved (h : Writing host flags size d fdt) (hroom : d.space + 4 ≤ size) :
    ∃ fdt1, fdt1 = fdtSetHeader
        (((fdt32St (fdtSetHeader fdt .sizeDtStruct (BitVec.ofNat 32 (callsSize d.calls + 4)))
            (fdtStruct + callsSize d.calls) fdtEndTag)).write
          (fdtStruct + callsSize d.calls + 4)
          ((fdt32St (fdtSetHeader fdt .sizeDtStruct (BitVec.ofNat 32 (callsSize d.calls + 4)))
            (fdtStruct + callsSize d.calls) fdtEndTag).read (size - d.tab.length) d.tab.length))
        .offDtStrings (BitVec.ofNat 32 (fdtStruct + callsSize d.calls + 4)) ∧
      Correcting fdt1 size d.tab [] d.calls ∧
      (∀ k, k ≠ .sizeDtStruct → k ≠ .offDtStrings → fdtGetHeader fdt1 k = fdtGetHeader fdt k) ∧
      fdtGetHeader fdt1 .offDtStrings = BitVec.ofNat 32 (fdtStruct + callsSize d.calls + 4) ∧
      fdt1.read fdtHdrsize 16 = List.replicate 16 0#8 ∧
      fdt1.read (fdtStruct + callsSize d.calls + 4) d.tab.length = d.tab ∧
      ∀ i, size ≤ i → fdt1.data i = host.data i := by
  have hd : d.space = fdtStruct + callsSize d.calls + d.tab.length := rfl
  have hstruct : fdtStruct = 64 := rfl
  have hhdrsize : fdtHdrsize = 48 := rfl
  have hsmall := h.sized.small
  -- the table that is moved
  have htab : (fdt32St (fdtSetHeader fdt .sizeDtStruct (BitVec.ofNat 32 (callsSize d.calls + 4)))
      (fdtStruct + callsSize d.calls) fdtEndTag).read (size - d.tab.length) d.tab.length
        = d.tab := by
    refine Eq.trans (read_congr fun i hi => ?_) h.strings
    rw [fdt32St_outside _ _ _ (by omega), fdtSetHeader_data _ _ _ (by omega)]
  refine ⟨_, rfl, ?_⟩
  rw [htab]
  generalize hg : fdtSetHeader (((fdt32St (fdtSetHeader fdt .sizeDtStruct (BitVec.ofNat 32
    (callsSize d.calls + 4))) (fdtStruct + callsSize d.calls) fdtEndTag)).write
      (fdtStruct + callsSize d.calls + 4) d.tab) .offDtStrings
        (BitVec.ofNat 32 (fdtStruct + callsSize d.calls + 4)) = fdt1
  have hdata : ∀ i, 40 ≤ i → (i < fdtStruct + callsSize d.calls ∨
      fdtStruct + callsSize d.calls + 4 + d.tab.length ≤ i) → fdt1.data i = fdt.data i := by
    intro i hi hout
    rw [← hg, fdtSetHeader_data _ _ _ hi, write_outside _ _ _ (by omega),
      fdt32St_outside _ _ _ (by omega), fdtSetHeader_data _ _ _ hi]
  have hhdr : ∀ k, k ≠ .sizeDtStruct → k ≠ .offDtStrings →
      fdtGetHeader fdt1 k = fdtGetHeader fdt k := by
    intro k h1 h2
    rw [← hg, fdtGetHeader_set_ne _ h2.symm, fdtGetHeader_write _ (by omega),
      fdtGetHeader_st _ (by omega), fdtGetHeader_set_ne _ h1.symm]
  refine ⟨⟨⟨?_, ?_, ?_, ?_, ?_, hsmall⟩, ?_, trivial, ?_, ?_⟩, hhdr, ?_, ?_, ?_, ?_⟩
  · exact (hhdr _ (by decide) (by decide)).trans h.sized.totalsize
  · exact (hhdr _ (by decide) (by decide)).trans h.sized.offDtStruct
  · rw [← hg, fdtGetHeader_set_ne _ (by decide), fdtGetHeader_write _ (by omega),
      fdtGetHeader_st _ (by omega), fdtGetHeader_set]
    rfl
  · exact (hhdr _ (by decide) (by decide)).trans h.sized.version
  · rw [List.nil_append]
    omega
  · exact (hhdr _ (by decide) (by decide)).trans h.sizeDtStrings
  · exact h.calls.congr (fun i hi => (hdata _ (by omega) (Or.inl (by omega))).symm) fun _ _ => id
  · rw [List.nil_append, ← hg]
    refine (fdt32Ld_congr fun i hi => fdtSetHeader_data _ _ _ (by omega)).trans ?_
    rw [fdt32Ld_write _ _ (by omega), fdt32Ld_fdt32St]
  · rw [← hg, fdtGetHeader_set]
  · rw [← h.reserve]
    exact read_congr fun i hi => hdata _ (by omega) (Or.inl (by omega))
  · rw [← hg]
    refine Eq.trans (read_congr fun i hi => fdtSetHeader_data _ _ _ (by omega)) (read_write _ _ _)
  · intro i hi
    exact (hdata i (by omega) (Or.inr (by omega))).trans (h.outside i hi)

/-- **`fdt_finish` completes the draft, when there is room for the terminator.** -/
theorem Writing.finish (h : Writing host flags size d fdt) (assumePerfect : Bool) :
    if d.space + 4 ≤ size then
      ∃ fdt', fdtFinish assumePerfect fdt = (fdt', 0#32) ∧ Finished host size d fdt'
    else fdtFinish assumePerfect fdt = (fdt, FdtErr.noSpace.code) := by
  have hd : d.space = fdtStruct + callsSize d.calls + d.tab.length := rfl
  have hstruct : fdtStruct = 64 := rfl
  have hhdrsize : fdtHdrsize = 48 := rfl
  have hsmall := h.sized.small
  unfold fdtFinish
  rw [h.probe]
  simp only
  rw [h.grab]
  split
  · rename_i hroom
    obtain ⟨fdt1, hfdt1, hcorr, hhdr1, hoff1, hrsv1, hstr1, hout1⟩ := h.moved hroom
    have hfuel : d.calls.length < callsSize d.calls + 4 := by
      have := length_le_callsSize d.calls
      omega
    obtain ⟨fdt2, hwalk, hdone, hout2⟩ := hcorr.walk assumePerfect hfuel
    rw [List.nil_append] at hwalk hdone hout2
    have hhdr2 : ∀ k, fdtGetHeader fdt2 k = fdtGetHeader fdt1 k :=
      fdtGetHeader_congr fun i hi => hout2 i (Or.inl (by omega))
    -- the header before the table is moved
    have hgrab : ∀ k, k ≠ .sizeDtStruct → fdtGetHeader
        (fdt32St (fdtSetHeader fdt .sizeDtStruct (BitVec.ofNat 32 (callsSize d.calls + 4)))
          (fdtStruct + callsSize d.calls) fdtEndTag) k = fdtGetHeader fdt k := by
      intro k hk
      rw [fdtGetHeader_st _ (by omega), fdtGetHeader_set_ne _ hk.symm]
    have hgrabS : fdtGetHeader
        (fdt32St (fdtSetHeader fdt .sizeDtStruct (BitVec.ofNat 32 (callsSize d.calls + 4)))
          (fdtStruct + callsSize d.calls) fdtEndTag) .sizeDtStruct
            = BitVec.ofNat 32 (callsSize d.calls + 4) := by
      rw [fdtGetHeader_st _ (by omega), fdtGetHeader_set]
    have hold : BitVec.ofNat 32 size - BitVec.ofNat 32 d.tab.length
        = BitVec.ofNat 32 (size - d.tab.length) := by
      obtain ⟨k, hk⟩ : ∃ k, size = k + d.tab.length := ⟨size - d.tab.length, by omega⟩
      rw [hk, show k + d.tab.length - d.tab.length = k by omega, ← ofNat_add_ofNat]
      bv_omega
    have hsizeS1 : fdtGetHeader fdt1 .sizeDtStruct = BitVec.ofNat 32 (callsSize d.calls + 4) :=
      hcorr.sized.sizeDtStruct
    simp only [hgrab _ (show FdtField.totalsize ≠ .sizeDtStruct by decide),
      hgrab _ (show FdtField.sizeDtStrings ≠ .sizeDtStruct by decide),
      hgrab _ (show FdtField.offDtStruct ≠ .sizeDtStruct by decide), hgrabS, h.sized.totalsize,
      h.sizeDtStrings, h.sized.offDtStruct, hold, ofNat_add_ofNat, ← Nat.add_assoc]
    rw [toNat_ofNat_word (by omega), toNat_ofNat_word (by omega), toNat_ofNat_word (by omega),
      ← hfdt1, hsizeS1, toNat_ofNat_word (by omega)]
    simp only [callsSize_nil] at hwalk
    rw [show (0#32) = BitVec.ofNat 32 0 from rfl, hwalk]
    simp only
    rw [show (BitVec.ofNat 32 0) = 0#32 from rfl, ofNat_slt_zero (by omega),
      if_neg Bool.false_ne_true]
    refine ⟨_, rfl, ?_⟩
    have hstrs2 : fdtGetHeader fdt2 .sizeDtStrings = BitVec.ofNat 32 d.tab.length :=
      hdone.sizeDtStrings
    rw [hstrs2, ofNat_add_ofNat]
    generalize hg : fdtSetHeader (fdtSetHeader (fdtSetHeader fdt2 .totalsize (BitVec.ofNat 32
      (fdtStruct + callsSize d.calls + 4 + d.tab.length))) .lastCompVersion
        fdtLastCompatibleVersion) .magic fdtMagic = fdt3
    have hdata3 : ∀ i, 40 ≤ i → fdt3.data i = fdt2.data i := by
      intro i hi
      rw [← hg, fdtSetHeader_data _ _ _ hi, fdtSetHeader_data _ _ _ hi, fdtSetHeader_data _ _ _ hi]
    have hhdr3 : ∀ k, k ≠ .totalsize → k ≠ .lastCompVersion → k ≠ .magic →
        fdtGetHeader fdt3 k = fdtGetHeader fdt2 k := by
      intro k h1 h2 h3
      rw [← hg, fdtGetHeader_set_ne _ h3.symm, fdtGetHeader_set_ne _ h2.symm,
        fdtGetHeader_set_ne _ h1.symm]
    have hread : ∀ p n, 40 ≤ p → (p + n ≤ fdtStruct ∨ fdtStruct + callsSize d.calls ≤ p) →
        fdt3.read p n = fdt1.read p n := by
      intro p n hp hpn
      apply read_congr
      intro i hi
      rw [hdata3 _ (by omega), hout2 _ (by omega)]
    exact
      { sized := by
          refine ⟨?_, ?_, ?_, ?_, by omega, by omega⟩
          · rw [← hg, fdtGetHeader_set_ne _ (by decide), fdtGetHeader_set_ne _ (by decide),
              fdtGetHeader_set, show fdtStruct + callsSize d.calls + 4 + d.tab.length
                = d.space + 4 by omega]
          · rw [hhdr3 _ (by decide) (by decide) (by decide)]
            exact hdone.sized.offDtStruct
          · rw [hhdr3 _ (by decide) (by decide) (by decide), hhdr2, hsizeS1]
          · rw [hhdr3 _ (by decide) (by decide) (by decide)]
            exact hdone.sized.version
        magic := by rw [← hg, fdtGetHeader_set]
        offDtStrings := by rw [hhdr3 _ (by decide) (by decide) (by decide), hhdr2, hoff1]
        offMemRsvmap := by
          rw [hhdr3 _ (by decide) (by decide) (by decide), hhdr2,
            hhdr1 _ (by decide) (by decide), h.offMemRsvmap]
        lastCompVersion := by rw [← hg, fdtGetHeader_set_ne _ (by decide), fdtGetHeader_set]
        sizeDtStrings := by rw [hhdr3 _ (by decide) (by decide) (by decide), hstrs2]
        reserve := (hread _ _ (by omega) (Or.inl (by omega))).trans hrsv1
        calls := hdone.behind.congr (fun i hi => (hdata3 _ (by omega)).symm) fun _ _ => id
        fin := by
          refine (fdt32Ld_congr fun i hi => hdata3 _ (by omega)).trans ?_
          simpa using hdone.fin
        strings := (hread _ _ (by omega) (Or.inr (by omega))).trans hstr1
        outside := fun i hi => by
          rw [hdata3 _ (by omega), hout2 _ (Or.inr (by omega))]
          exact hout1 i hi }
  · rfl

/-! ## Reading -/

/-- A string that ends within the bytes looked at. -/
theorem stringWithin_eq {fdt : HostBuf} {p : Nat} {s : CString}
    (h : fdt.read p (s.length + 1) = s.bytes) {len : Nat} (hlen : s.length < len) :
    stringWithin fdt p len = some s := by
  obtain ⟨cs, hcs⟩ := s
  simp only [CString.bytes, CString.length] at h hlen
  induction cs generalizing p len with
  | nil =>
      obtain ⟨len, rfl⟩ := Nat.exists_eq_succ_of_ne_zero (by omega : len ≠ 0)
      have h0 : fdt.data p = 0#8 := by simpa [HostBuf.read, readAt] using h
      rw [stringWithin, dif_pos h0]
  | cons b cs ih =>
      obtain ⟨len, rfl⟩ := Nat.exists_eq_succ_of_ne_zero (by omega : len ≠ 0)
      simp only [List.length_cons] at h hlen
      rw [HostBuf.read, readAt_succ, List.cons_append, List.cons.injEq] at h
      obtain ⟨hb, hrest⟩ := h
      have hb0 : fdt.data p ≠ 0#8 := by
        rw [hb]
        exact fun h0 => hcs (h0 ▸ List.mem_cons_self)
      have := ih (fun hm => hcs (List.mem_cons_of_mem b hm)) hrest (by omega : cs.length < len)
      rw [stringWithin, dif_neg hb0, this, Option.map_some]
      simp only [hb]

/-- The name of a property is found in the strings block. -/
theorem Finished.getString (h : Finished host size d fdt) {off : BitVec 32} {name : CString}
    (hoff : FwdName d.tab off name) : fdtGetString fdt off = some name := by
  obtain ⟨i, hi, rfl, hhas⟩ := hoff
  have hd : d.space = fdtStruct + callsSize d.calls + d.tab.length := rfl
  have hsmall := h.sized.small
  have htake : (d.tab.drop i).take (name.length + 1) = name.bytes := of_decide_eq_true hhas
  have hfit : i + (name.length + 1) ≤ d.tab.length := by
    have := congrArg List.length htake
    rw [List.length_take, List.length_drop, name.bytes_length] at this
    omega
  have hread : fdt.read (fdtStruct + callsSize d.calls + 4 + i) (name.length + 1) = name.bytes := by
    rw [← htake]
    conv => rhs; rw [← h.strings]
    exact (take_drop_readAt _ _ hfit).symm
  have hsub : ∀ a b, b ≤ a → BitVec.ofNat 32 a - BitVec.ofNat 32 b = BitVec.ofNat 32 (a - b) := by
    intro a b hab
    obtain ⟨k, rfl⟩ := Nat.exists_eq_add_of_le hab
    rw [Nat.add_sub_cancel_left, ← ofNat_add_ofNat]
    bv_omega
  unfold fdtGetString
  simp only [h.sized.totalsize, h.offDtStrings, h.sizeDtStrings, ofNat_add_ofNat]
  rw [decide_eq_false (mt (ofNat_le_iff (by omega) (by omega)).mp (by omega)),
    decide_eq_false (mt (ofNat_le_iff (by omega) (by omega)).mp (by omega)),
    ofNat_slt_zero (by omega), Bool.or_self, Bool.or_self, if_neg Bool.false_ne_true,
    hsub _ _ (by omega), hsub _ _ (by omega), if_neg (mt (ofNat_lt_iff (by omega) (by omega)).mp
      (by omega)), toNat_ofNat_word (by omega), toNat_ofNat_word (by omega),
    show i + (fdtStruct + callsSize d.calls + 4) = fdtStruct + callsSize d.calls + 4 + i by omega]
  exact stringWithin_eq hread (by omega)

/-- What stands at a call is the call. -/
theorem Finished.tokenAt (h : Finished host size d fdt) {t : FdtCall} {o : Nat}
    (ht : t.At (FwdName d.tab) fdt (fdtStruct + o)) (hle : o + t.size ≤ callsSize d.calls) :
    fdtTokenAt fdt t.tag (BitVec.ofNat 32 o) = some t := by
  have hsmall := h.sized.small
  have hfits := h.sized.fits
  unfold fdtTokenAt
  simp only [h.sized.offDtStruct, h.sized.sizeDtStruct]
  rw [toNat_ofNat_word (by decide), toNat_ofNat_word (by omega), toNat_ofNat_word (by omega)]
  cases t with
  | beginNode name =>
      have halign := le_fdtTagAlign (name.length + 1)
      simp only [FdtCall.size] at hle
      rw [FdtCall.tag, if_pos rfl, stringWithin_eq ht.2 (by omega)]
      rfl
  | property name val =>
      obtain ⟨-, hlen, hoff, hval⟩ := ht
      have halign := le_fdtTagAlign val.length
      simp only [FdtCall.size] at hle
      rw [FdtCall.tag, if_neg (by decide), if_pos rfl, h.getString hoff, hlen,
        toNat_ofNat_word (by omega), hval]
      rfl
  | endNode => rfl

theorem FdtCall.tag_ne_nop (t : FdtCall) : t.tag ≠ fdtNopTag := by
  cases t <;> (simp only [FdtCall.tag]; decide)

/-- **A complete blob is read as the calls it was written with.** -/
theorem Finished.tokens (h : Finished host size d fdt) (assumePerfect : Bool) :
    fdtTokens assumePerfect fdt = some d.calls := by
  have hsmall := h.sized.small
  have hfits := h.sized.fits
  -- from any call on
  have hwalk : ∀ rest done fuel, d.calls = done ++ rest → rest.length < fuel →
      fdtWalk assumePerfect fdt fuel (BitVec.ofNat 32 (callsSize done)) = some rest := by
    intro rest
    induction rest with
    | nil =>
        intro done fuel hdone hfuel
        obtain ⟨fuel, rfl⟩ := Nat.exists_eq_succ_of_ne_zero (by omega : fuel ≠ 0)
        rw [List.append_nil] at hdone
        have hnext := fdtNextTag_end h.sized assumePerfect (o := callsSize done)
          (by rw [← hdone]; exact h.fin) (by rw [hdone]) (callsSize_mod done)
        rw [fdtWalk, hnext]
        simp only [if_true]
        rw [ofNat_slt_zero (by rw [← hdone]; omega), if_neg Bool.false_ne_true]
    | cons t rest ih =>
        intro done fuel hdone hfuel
        obtain ⟨fuel, rfl⟩ := Nat.exists_eq_succ_of_ne_zero (by omega : fuel ≠ 0)
        simp only [List.length_cons] at hfuel
        have hsize : callsSize d.calls = callsSize done + t.size + callsSize rest := by
          rw [hdone, callsSize_append, callsSize_cons, Nat.add_assoc]
        have hcalls := h.calls
        rw [hdone, callsAt_append] at hcalls
        have ht := hcalls.2.1
        have hnext := fdtNextTag_call h.sized assumePerfect ht (by omega) (callsSize_mod done)
        have hrest := ih (done ++ [t]) fuel (by simp [hdone]) (by omega)
        rw [callsSize_append, callsSize_cons, callsSize_nil, Nat.add_zero] at hrest
        rw [fdtWalk, hnext]
        simp only [if_neg t.tag_ne_end, if_neg t.tag_ne_nop]
        rw [h.tokenAt ht (by omega), hrest]
        rfl
  have hlen := length_le_callsSize d.calls
  rw [fdtTokens, h.sized.sizeDtStruct, toNat_ofNat_word (by omega)]
  exact hwalk d.calls [] _ rfl (by omega)

end RV640
