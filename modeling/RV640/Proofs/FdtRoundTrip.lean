import RV640.Fdt.Tree
import RV640.Proofs.FdtFinish

set_option autoImplicit false

/-! # Round trip of the device tree writer

The results about `fdt_sw.c` as a whole: what a blob says, when the calls succeed, and the tree that
balanced calls stand for.
-/

namespace RV640

open Bits Bytes

variable {host : HostBuf} {flags : BitVec 32} {size : Nat} {d : Draft} {fdt : HostBuf}

/-! ## The header -/

theorem fdtCheckOff_eq {h t o : Nat} (hh : h < 2 ^ 32) (ht : t < 2 ^ 32) (ho : o < 2 ^ 32) :
    fdtCheckOff (BitVec.ofNat 32 h) (BitVec.ofNat 32 t) (BitVec.ofNat 32 o)
      = (decide (h ≤ o) && decide (o ≤ t)) := by
  rw [fdtCheckOff, decide_eq_decide.mpr (ofNat_le_iff hh ho),
    decide_eq_decide.mpr (ofNat_le_iff ho ht)]

theorem fdtCheckBlock_eq {h t b s : Nat} (hh : h ≤ b) (ht : t < 2 ^ 31) (hbs : b + s ≤ t) :
    fdtCheckBlock (BitVec.ofNat 32 h) (BitVec.ofNat 32 t) (BitVec.ofNat 32 b) (BitVec.ofNat 32 s)
      = true := by
  rw [fdtCheckBlock, ofNat_add_ofNat, fdtCheckOff_eq (by omega) (by omega) (by omega),
    fdtCheckOff_eq (by omega) (by omega) (by omega),
    decide_eq_false (mt (ofNat_lt_iff (by omega) (by omega)).mp (by omega)),
    decide_eq_true (by omega), decide_eq_true (by omega), decide_eq_true (by omega),
    decide_eq_true (by omega)]
  rfl

/-- The header of a complete blob is accepted. -/
theorem Finished.checkHeader (h : Finished host size d fdt) : fdtCheckHeader fdt = none := by
  have hsmall := h.sized.small
  have hfits := h.sized.fits
  have hstruct : fdtStruct = 64 := rfl
  have hd : d.space = fdtStruct + callsSize d.calls + d.tab.length := rfl
  have hmod := callsSize_mod d.calls
  have hhdrsize : fdtHeaderSize fdtLastSupportedVersion = BitVec.ofNat 32 40 := by decide
  have hrsv : BitVec.ofNat 32 fdtHdrsize % 8#32 = 0#32 := by decide
  have hoff : BitVec.ofNat 32 fdtStruct % 4#32 = 0#32 := by decide
  have htotal : ¬ (BitVec.ofNat 32 (d.space + 4) < BitVec.ofNat 32 40) :=
    mt (ofNat_lt_iff (by omega) (by omega)).mp (by omega)
  have hmax : ¬ (0x7fffffff#32 < BitVec.ofNat 32 (d.space + 4)) :=
    mt (ofNat_lt_iff (m := 0x7fffffff) (by omega) (by omega)).mp (by omega)
  have hmem : fdtCheckOff (BitVec.ofNat 32 40) (BitVec.ofNat 32 (d.space + 4))
      (BitVec.ofNat 32 fdtHdrsize) = true := by
    rw [fdtCheckOff_eq (by omega) (by omega) (by decide), decide_eq_true (by decide),
      decide_eq_true (by simp only [fdtHdrsize]; omega)]
    rfl
  have hblock := fdtCheckBlock_eq (h := 40) (t := d.space + 4) (b := fdtStruct)
    (s := callsSize d.calls + 4) (by omega) hsmall (by omega)
  have hstrs := fdtCheckBlock_eq (h := 40) (t := d.space + 4)
    (b := fdtStruct + callsSize d.calls + 4) (s := d.tab.length) (by omega) hsmall (by omega)
  unfold fdtCheckHeader
  simp only [h.sized.version, h.sized.totalsize, h.sized.offDtStruct, h.sized.sizeDtStruct, h.magic,
    h.lastCompVersion, h.offMemRsvmap, h.offDtStrings, h.sizeDtStrings, hhdrsize, hrsv, hoff, hmem,
    hblock, hstrs, htotal, hmax]
  rfl

/-! ## Sessions -/

/-- What a session of calls and `fdt_finish` leave of a buffer of `size` bytes: a blob within it
whose header is accepted and in which the reader finds exactly the calls that returned 0, in order;
or nothing new, for want of room. -/
def FdtReadBack (assumePerfect readPerfect : Bool) (buf : HostBuf) (flags : BitVec 32) (size : Nat)
    (ts : List FdtCall) : Prop :=
  ∃ start, fdtStart assumePerfect buf size flags = (start, none) ∧
    let session := fdtSession assumePerfect start ts
    let (blob, err) := fdtFinish assumePerfect session.1
    (err = 0#32 ∧ fdtCheckHeader blob = none ∧ fdtTokens readPerfect blob = some session.2 ∧
        (fdtGetHeader blob .totalsize).toNat ≤ size ∧ ∀ i, size ≤ i → blob.data i = buf.data i) ∨
      err = FdtErr.noSpace.code ∧ blob = session.1

/-- **The reader finds what the writer was told**, for every buffer of 64 bytes or more and below
2 GB and every sequence of calls whose property names are shorter than 64 letters, also where some
of them fail, and in both builds. -/
theorem fdt_read_back (assumePerfect readPerfect : Bool) (buf : HostBuf)
    (hflags : FdtFlagsOk flags) (hsize : fdtStruct ≤ size) (hsmall : size < 2 ^ 31)
    {ts : List FdtCall} (hts : ∀ t ∈ ts, t.Short) :
    FdtReadBack assumePerfect readPerfect buf flags size ts := by
  obtain ⟨start, hstart, hw⟩ := writing_start assumePerfect buf hflags hsize hsmall
  obtain ⟨hw', hcalls⟩ := hw.session assumePerfect hts
  have hfin := hw'.finish assumePerfect
  refine ⟨start, hstart, ?_⟩
  simp only
  split at hfin
  · rename_i hroom
    obtain ⟨blob, hblob, hf⟩ := hfin
    rw [hblob]
    refine Or.inl ⟨rfl, hf.checkHeader, ?_, ?_, hf.outside⟩
    · rw [hf.tokens readPerfect, hcalls]
      rfl
    · rw [hf.sized.totalsize, toNat_ofNat_word (by omega)]
      exact hroom
  · rw [hfin]
    exact Or.inr ⟨rfl, rfl⟩

/-- A root with a property and a subnode with another one. -/
def sampleCalls : List FdtCall :=
  [.beginNode ⟨[], by decide⟩, .property ⟨[0x61#8, 0x62#8], by decide⟩ [1#8, 2#8, 3#8],
    .beginNode ⟨[0x63#8], by decide⟩, .property ⟨[0x62#8], by decide⟩ [], .endNode, .endNode]

theorem fdt_read_back_sample : FdtReadBack false true ⟨fun _ => 0xAA#8⟩ 0#32 160 sampleCalls :=
  fdt_read_back false true ⟨fun _ => 0xAA#8⟩ (show FdtFlagsOk 0#32 from rfl) (by decide) (by decide)
    (by decide)

/-! ## Room -/

theorem length_le_tabAdd (dedup : Bool) (tab : List Byte) (s : CString) :
    tab.length ≤ (tabAdd dedup tab s).length := by
  unfold tabAdd
  split
  · exact Nat.le_refl _
  · rw [List.length_append]
    omega

theorem Draft.space_le_add (dedup : Bool) (d : Draft) (t : FdtCall) :
    d.space ≤ (d.add dedup t).space := by
  simp only [Draft.space, Draft.add, callsSize_append]
  cases t with
  | beginNode name => simp only; omega
  | property name val =>
      have := length_le_tabAdd dedup d.tab name
      simp only
      omega
  | endNode => simp only; omega

theorem Draft.space_le_foldl (dedup : Bool) (d : Draft) (ts : List FdtCall) :
    d.space ≤ (ts.foldl (Draft.add dedup) d).space := by
  induction ts generalizing d with
  | nil => exact Nat.le_refl _
  | cons t ts ih => exact (d.space_le_add dedup t).trans (ih _)

/-- Where all calls fit, none is refused. -/
theorem Draft.addAll_fits {dedup : Bool} {ts : List FdtCall}
    (h : (ts.foldl (Draft.add dedup) d).space ≤ size) :
    d.addAll dedup size ts = ts.foldl (Draft.add dedup) d := by
  induction ts generalizing d with
  | nil => rfl
  | cons t ts ih =>
      rw [List.foldl_cons] at h
      rw [Draft.addAll, if_pos ((Draft.space_le_foldl dedup _ ts).trans h), ih h, List.foldl_cons]

theorem Draft.length_addAll (dedup : Bool) (ts : List FdtCall) :
    (d.addAll dedup size ts).calls.length ≤ d.calls.length + ts.length := by
  induction ts generalizing d with
  | nil => exact Nat.le_refl _
  | cons t ts ih =>
      rw [Draft.addAll, List.length_cons]
      split
      · have := ih (d := d.add dedup t)
        simp only [Draft.add, List.length_append, List.length_singleton] at this ⊢
        omega
      · have := ih (d := d)
        omega

/-- Where none is refused, the draft is that of all calls. -/
theorem Draft.addAll_all {dedup : Bool} {ts : List FdtCall}
    (h : (d.addAll dedup size ts).calls = d.calls ++ ts) :
    d.addAll dedup size ts = ts.foldl (Draft.add dedup) d := by
  induction ts generalizing d with
  | nil => rfl
  | cons t ts ih =>
      rw [Draft.addAll] at h ⊢
      split at h
      · rename_i hroom
        rw [if_pos hroom, List.foldl_cons]
        apply ih
        rw [h]
        simp [Draft.add]
      · -- a call that is refused is missing
        have hlen : (d.addAll dedup size ts).calls.length ≤ d.calls.length + ts.length :=
          Draft.length_addAll dedup ts
        rw [h, List.length_append, List.length_cons] at hlen
        omega

theorem Draft.calls_foldl (dedup : Bool) (d : Draft) (ts : List FdtCall) :
    (ts.foldl (Draft.add dedup) d).calls = d.calls ++ ts := by
  induction ts generalizing d with
  | nil => simp
  | cons t ts ih =>
      rw [List.foldl_cons, ih]
      simp only [Draft.add, List.append_assoc, List.singleton_append]

/-- The draft of some calls, with room for all of them. -/
def draftOf (flags : BitVec 32) (ts : List FdtCall) : Draft :=
  ts.foldl (Draft.add (fdtDedup flags)) ⟨[], []⟩

/-- Where there is room for all calls and the terminator, all succeed. -/
theorem Writing.complete {start : HostBuf} (h : Writing host flags size ⟨[], []⟩ start)
    (assumePerfect : Bool) {ts : List FdtCall} (hts : ∀ t ∈ ts, t.Short)
    (hroom : (draftOf flags ts).space + 4 ≤ size) :
    (fdtSession assumePerfect start ts).2 = ts ∧
      ∃ blob, fdtFinish assumePerfect (fdtSession assumePerfect start ts).1 = (blob, 0#32) ∧
        Finished host size (draftOf flags ts) blob := by
  obtain ⟨hw, hcalls⟩ := h.session assumePerfect hts
  have hdraft : Draft.addAll (fdtDedup flags) size ⟨[], []⟩ ts = draftOf flags ts :=
    Draft.addAll_fits (by unfold draftOf at hroom; omega)
  rw [hdraft] at hw hcalls
  have hfin := hw.finish assumePerfect
  rw [if_pos hroom] at hfin
  rw [draftOf, Draft.calls_foldl] at hcalls
  exact ⟨hcalls.symm, hfin⟩

/-- Every call and `fdt_finish` return 0. -/
def FdtAllSucceed (assumePerfect : Bool) (buf : HostBuf) (flags : BitVec 32) (size : Nat)
    (ts : List FdtCall) : Prop :=
  ∃ start, fdtStart assumePerfect buf size flags = (start, none) ∧
    (fdtSession assumePerfect start ts).2 = ts ∧
    (fdtFinish assumePerfect (fdtSession assumePerfect start ts).1).2 = 0#32

/-- **A tree is refused exactly when it does not fit**: in a buffer of 64 bytes or more, and with
property names shorter than 64 letters, all calls and `fdt_finish` succeed if and only if the
header, the calls, the shared names and the terminator together are no longer than the buffer. -/
theorem fdt_all_succeed_iff (assumePerfect : Bool) (buf : HostBuf) (hflags : FdtFlagsOk flags)
    (hsize : fdtStruct ≤ size) (hsmall : size < 2 ^ 31) {ts : List FdtCall}
    (hts : ∀ t ∈ ts, t.Short) :
    FdtAllSucceed assumePerfect buf flags size ts ↔ (draftOf flags ts).space + 4 ≤ size := by
  obtain ⟨start, hstart, hw⟩ := writing_start assumePerfect buf hflags hsize hsmall
  constructor
  · rintro ⟨start', hstart', hall, herr⟩
    obtain rfl : start = start' := by simpa using hstart.symm.trans hstart'
    obtain ⟨hw', hcalls⟩ := hw.session assumePerfect hts
    have hfin := hw'.finish assumePerfect
    rw [hall] at hcalls
    split at hfin
    · rename_i hroom
      rwa [Draft.addAll_all hcalls] at hroom
    · rw [hfin] at herr
      have hne : FdtErr.noSpace.code ≠ 0#32 := by decide
      exact absurd herr hne
  · intro hroom
    obtain ⟨hall, blob, hblob, -⟩ := hw.complete assumePerfect hts hroom
    exact ⟨start, hstart, hall, by rw [hblob]⟩

/-- The name `b` ends the name `ab`: the calls take 123 bytes. -/
theorem fdt_all_succeed_sample :
    FdtAllSucceed false ⟨fun _ => 0xAA#8⟩ 0#32 123 sampleCalls
      ↔ (draftOf 0#32 sampleCalls).space + 4 ≤ 123 :=
  fdt_all_succeed_iff false ⟨fun _ => 0xAA#8⟩ (show FdtFlagsOk 0#32 from rfl) (by decide)
    (by decide) (by decide)

/-! ## Trees -/

/-- A tree is written from `fdt_create_with_flags` to `fdt_finish`; `none` when a call fails. -/
def fdtWriteTree (assumePerfect : Bool) (buf : HostBuf) (flags : BitVec 32) (size : Nat)
    (t : FdtTree) : Option HostBuf :=
  match fdtStart assumePerfect buf size flags with
  | (_, some _) => none
  | (start, none) =>
      let session := fdtSession assumePerfect start (treeCalls t)
      let (blob, err) := fdtFinish assumePerfect session.1
      if session.2 = treeCalls t ∧ err = 0#32 then some blob else none

theorem Finished.trees (h : Finished host size d fdt) (assumePerfect : Bool) {t : FdtTree}
    (hcalls : d.calls = treeCalls t) : fdtTrees assumePerfect fdt = some [t] := by
  rw [fdtTrees, h.tokens assumePerfect, hcalls]
  exact parse_treeCalls t

/-- **A tree that is written is read back as itself**, at any depth and with any values and node
names, when its property names are shorter than 64 letters and all its calls succeed. -/
theorem fdt_tree_round_trip (assumePerfect readPerfect : Bool) (buf : HostBuf)
    (hflags : FdtFlagsOk flags) (hsize : fdtStruct ≤ size) (hsmall : size < 2 ^ 31) {t : FdtTree}
    (ht : ∀ call ∈ treeCalls t, call.Short) {blob : HostBuf}
    (hblob : fdtWriteTree assumePerfect buf flags size t = some blob) :
    fdtCheckHeader blob = none ∧ fdtTrees readPerfect blob = some [t] := by
  obtain ⟨start, hstart, hw⟩ := writing_start assumePerfect buf hflags hsize hsmall
  obtain ⟨hw', hcalls⟩ := hw.session assumePerfect ht
  have hfin := hw'.finish assumePerfect
  unfold fdtWriteTree at hblob
  rw [hstart] at hblob
  simp only [Option.ite_none_right_eq_some] at hblob
  obtain ⟨⟨hall, herr⟩, hblob⟩ := hblob
  split at hfin
  · obtain ⟨fdt, hfdt, hf⟩ := hfin
    obtain rfl : fdt = blob := by
      rw [hfdt] at hblob
      exact Option.some.inj hblob
    exact ⟨hf.checkHeader, hf.trees readPerfect (by rw [hcalls, hall]; rfl)⟩
  · rw [hfin] at herr
    have hne : FdtErr.noSpace.code ≠ 0#32 := by decide
    exact absurd herr hne

theorem fdtWriteTree_room (assumePerfect : Bool) (buf : HostBuf) (hflags : FdtFlagsOk flags)
    (hsize : fdtStruct ≤ size) (hsmall : size < 2 ^ 31) {t : FdtTree}
    (ht : ∀ call ∈ treeCalls t, call.Short)
    (hroom : (draftOf flags (treeCalls t)).space + 4 ≤ size) :
    ∃ blob, fdtWriteTree assumePerfect buf flags size t = some blob := by
  obtain ⟨start, hstart, hw⟩ := writing_start assumePerfect buf hflags hsize hsmall
  obtain ⟨hall, blob, hblob, -⟩ := hw.complete assumePerfect ht hroom
  refine ⟨blob, ?_⟩
  simp only [fdtWriteTree, hstart, hblob, hall, and_self, if_true]

/-- A root with a property and two subnodes, the second with one of its own. -/
def sampleTree : FdtTree :=
  .node (cstr "") [(cstr "a", [1#8])]
    [.node (cstr "b") [(cstr "a", [])] [],
      .node (cstr "c") [] [.node (cstr "d") [(cstr "e", [2#8, 3#8])] []]]

theorem fdt_tree_round_trip_sample :
    ∃ blob, fdtWriteTree false ⟨fun _ => 0xAA#8⟩ 0#32 256 sampleTree = some blob ∧
      fdtCheckHeader blob = none ∧ fdtTrees false blob = some [sampleTree] := by
  have ht : ∀ call ∈ treeCalls sampleTree, call.Short := by decide
  have hroom : (draftOf 0#32 (treeCalls sampleTree)).space + 4 ≤ 256 := by decide
  obtain ⟨blob, hblob⟩ := fdtWriteTree_room false ⟨fun _ => 0xAA#8⟩ (show FdtFlagsOk 0#32 from rfl)
    (by decide) (by decide) ht hroom
  exact ⟨blob, hblob, fdt_tree_round_trip false false ⟨fun _ => 0xAA#8⟩
    (show FdtFlagsOk 0#32 from rfl) (by decide) (by decide) ht hblob⟩

end RV640
