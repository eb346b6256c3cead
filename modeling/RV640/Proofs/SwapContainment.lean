import RV640.Proofs.SwapFaults

set_option autoImplicit false

/-! # Containment of swap failures

An access to one page should neither show nor change another page, whatever DOS does. A lookup keeps
this as long as it finds its page, or loads it in the place of a page that is not lost; after a
failed load it hands out the page that was to be replaced, and a failed write-back is forgotten.
-/

namespace RV640

open Bits

namespace SwapMemory

variable {cfg : MemCfg} {s : SwapMemory cfg} {env : SwapEnv} {j : Nat} {l : List (Fin cfg.pages)}

/-! ## One lookup -/

/-- A lookup of `addr` that led from `s` to `t` returned the page of the address, with the data that
the address stands for, and left what the other addresses stand for. A page that its file does not
have to the end may only get bytes where it had none. -/
structure LookupContained (s t : SwapMemory cfg) (i : Fin cfg.pages) (addr : Nat) : Prop where
  own : (t.pages i).addr = cfg.pageAddr addr
  data : t.cache.block i = s.contents (cfg.pageAddr addr)
  others : ∀ pageAddr, cfg.pageSize ∣ pageAddr → pageAddr ≠ cfg.pageAddr addr →
    s.contents pageAddr <+: t.contents pageAddr

theorem hasAddr_false {pageAddr : Nat} {i : Fin cfg.pages} (h : (s.pages i).addr ≠ pageAddr) :
    s.hasAddr pageAddr i = false := decide_eq_false h

/-- A page that is found. -/
theorem hit_contained (h : s.Shape j l) {i : Fin cfg.pages} {addr : Nat}
    (hi : l.find? (s.hasAddr (cfg.pageAddr addr)) = some i) :
    let t := if i ≠ s.lruListHead then s.swapLruHead i else s
    t.Shape j (i :: l.erase i) ∧ LookupContained s t i addr := by
  intro t
  have haddr : (s.pages i).addr = cfg.pageAddr addr := by
    simpa [hasAddr] using List.find?_some hi
  have hcont : s.contents (cfg.pageAddr addr) = s.cache.block i := by
    rw [h.contents_eq, hi]
  by_cases hne : i = s.lruListHead
  · have ht : t = s := if_neg (not_not.mpr hne)
    have hl : i :: l.erase i = l := by
      rw [hne]
      exact h.linked.front_head
    rw [ht, hl]
    exact ⟨h, haddr, hcont.symm, fun _ _ _ => List.prefix_rfl⟩
  · have ht : t = s.swapLruHead i := if_pos hne
    have hr := Relinked.swapLruHead s i
    have hfront := h.toFront hne
    have hcache := hr.cache
    rw [ht]
    refine ⟨hfront, (hr.addr i).trans haddr, by rw [hcache, hcont], ?_⟩
    intro pageAddr _ hp
    have htest : (s.swapLruHead i).hasAddr pageAddr = s.hasAddr pageAddr := by
      funext k
      rw [hasAddr, hasAddr, hr.addr]
    have hsame : (s.swapLruHead i).contents pageAddr = s.contents pageAddr := by
      refine h.contents_congr hfront ?_ (fun k _ => congrFun (congrArg WriteBack.block hcache) k)
        (fun _ => congrFun (congrArg WriteBack.store hcache) _)
      rw [htest]
      exact Links.find?_front (hasAddr_false fun he => hp (he.symm.trans haddr)) l
    rw [hsame]

/-- A page that is replaced: after a full load, what the other addresses stand for. -/
theorem miss_contents {t : SwapMemory cfg} (h : s.Shape j l) {i : Fin cfg.pages}
    {newAddr : Nat} (hlast : l.getLast? = some i) {u : SwapMemory cfg}
    (hu : Evicted env s u j l i) (ht : LoadOutcome env u t i newAddr)
    (hshape : t.Shape j (i :: l.erase i)) (hnew : (t.pages i).addr = newAddr) {pageAddr : Nat}
    (hdvd : cfg.pageSize ∣ pageAddr) (hp : pageAddr ≠ newAddr) :
    s.contents pageAddr <+: t.contents pageAddr
      ↔ ((s.pages i).addr = pageAddr → Spared env s i) := by
  obtain ⟨xs, rfl⟩ := List.getLast?_eq_some_iff.mp hlast
  have hnot : i ∉ xs := by
    have hnd := h.linked.nodup
    rw [List.nodup_append] at hnd
    intro hm
    exact hnd.2.2 i hm i (List.mem_singleton_self i) rfl
  have herase : (xs ++ [i]).erase i = xs := by
    rw [List.erase_append_right _ hnot, List.erase_cons_head, List.append_nil]
  rw [herase] at hshape
  -- the pages in front of the last one are as they were
  have hsame : ∀ k ∈ xs, t.pages k = u.pages k := by
    intro k hk
    exact ht.others k fun he => hnot (he ▸ hk)
  have hfind : (i :: xs).find? (t.hasAddr pageAddr) = xs.find? (s.hasAddr pageAddr) := by
    rw [List.find?_cons, hasAddr_false (by rw [hnew]; exact hp.symm)]
    apply List.find?_congr
    intro k hk
    rw [hasAddr, hasAddr, hsame k hk, hu.addr]
  rw [hshape.contents_eq, h.contents_eq, hfind, List.find?_append]
  cases hx : xs.find? (s.hasAddr pageAddr) with
  | some k =>
      have hk : k ∈ xs := List.mem_of_find?_eq_some hx
      have hki : k ≠ i := fun he => hnot (he ▸ hk)
      have hkaddr : (s.pages k).addr = pageAddr := by simpa [hasAddr] using List.find?_some hx
      have hblock : t.cache.block k = s.cache.block k := by
        simp only [cache, hsame k hk, hu.data]
      constructor
      · intro _ hi
        exact Or.inl ⟨k, hki, hkaddr.trans hi.symm⟩
      · intro _
        simp only [Option.some_or, hblock]
        exact List.prefix_rfl
  | none =>
      have hnone : ∀ k, k ≠ i → (s.pages k).addr ≠ pageAddr := by
        intro k hki
        have hk : k ∈ xs := by
          rcases List.mem_append.mp (h.all k) with hm | hm
          · exact hm
          · exact absurd (List.mem_singleton.mp hm) hki
        simpa [hasAddr] using List.find?_eq_none.mp hx k hk
      simp only [Option.none_or, ht.stored]
      -- nothing else has the address: it is the victim's, or that of no cached page
      by_cases hi : (s.pages i).addr = pageAddr
      · subst hi
        have hself : List.find? (s.hasAddr (s.pages i).addr) [i] = some i := by simp [hasAddr]
        rw [hself]
        simp only
        -- a block is a whole page, so what the file has of it is all of it
        have hwhole : s.cache.block i <+: u.stored ((s.pages i).addr / cfg.pageSize)
            ↔ u.stored ((s.pages i).addr / cfg.pageSize) = s.cache.block i := by
          constructor
          · intro hpre
            exact (hpre.eq_of_length_le (by rw [block_length]; exact stored_length_le _)).symm
          · intro he
            rw [he]
        rw [hwhole, hu.own]
        constructor
        · exact fun hin _ => Or.inr hin
        · intro hsp
          rcases hsp trivial with ⟨k, hki, hk⟩ | hin
          · exact absurd hk (hnone k hki)
          · exact hin
      · have hself : List.find? (s.hasAddr pageAddr) [i] = none := by simp [hasAddr, hi]
        rw [hself]
        simp only
        have hne : pageAddr / cfg.pageSize ≠ (s.pages i).addr / cfg.pageSize := by
          intro he
          apply hi
          rw [← Nat.div_mul_cancel (h.aligned i), ← Nat.div_mul_cancel hdvd, he]
        exact ⟨fun _ he => absurd he hi, fun _ => hu.others _ hne⟩

/-- **A lookup returns, and is contained if and only if it is safe.** -/
theorem lookup_contained_iff (hpages : 2 ≤ cfg.pages) (h : s.Shape j l) (env : SwapEnv)
    (addr : Nat) :
    ∃ t i, s.lookupPage env addr = some (t, i) ∧ t.Shape j (i :: l.erase i)
      ∧ (LookupContained s t i addr ↔ LookupSafe env s addr) := by
  rcases lookup_cases h env addr with ⟨i, hfind, hsafe, hlook⟩ | ⟨hnone, i, hlast, hsafe, hlook⟩
  · obtain ⟨hshape, hcont⟩ := hit_contained h hfind
    exact ⟨_, i, hlook, hshape, fun _ => hsafe, fun _ => hcont⟩
  · have hev := evicted_spec env h (h.last_ne_head hpages hlast)
    have hdvd : cfg.pageSize ∣ cfg.pageAddr addr := by
      rw [cfg.pageAddr_eq]
      exact Nat.dvd_mul_left _ _
    have hload := loadPage_outcome env (evicted env s i) i hdvd
    have hshape := hload.shape hev.shape hdvd
    have hmiss : (s.pages i).addr ≠ cfg.pageAddr addr := by
      simpa [hasAddr] using List.find?_eq_none.mp hnone i (h.all i)
    refine ⟨_, i, hlook, hshape, ?_⟩
    -- the write-back goes to another page of the files
    have hne : cfg.pageAddr addr / cfg.pageSize ≠ (s.pages i).addr / cfg.pageSize := by
      intro he
      apply hmiss
      rw [← Nat.div_mul_cancel (h.aligned i), ← he, Nat.div_mul_cancel hdvd]
    have hcont : s.contents (cfg.pageAddr addr) = s.stored (cfg.pageAddr addr / cfg.pageSize) := by
      rw [h.contents_eq, hnone]
    rw [hsafe, ← hev.loadFull_iff]
    constructor
    · rintro ⟨hown, hdata, hothers⟩
      -- after a short load the page would still have the victim's address
      have hfull : LoadFull env (evicted env s i) (cfg.pageAddr addr) := by
        by_contra hshort
        rw [hload.short hshort, hev.addr] at hown
        exact hmiss hown
      have hpage : HasPage s (cfg.pageAddr addr) := by
        rw [← stored_length_eq_iff hdvd, ← hcont, ← hdata, block_length]
      exact ⟨hfull, hpage, (miss_contents h hlast hev hload hshape hown (h.aligned i) hmiss).mp
        (hothers _ (h.aligned i) hmiss) rfl⟩
    · rintro ⟨hfull, hpage, hspared⟩
      have hown := hload.full hfull
      refine ⟨hown, ?_, ?_⟩
      · have hkept : s.stored (cfg.pageAddr addr / cfg.pageSize)
            = (evicted env s i).stored (cfg.pageAddr addr / cfg.pageSize) := by
          refine (hev.others _ hne).eq_of_length_le ?_
          rw [(stored_length_eq_iff hdvd).mpr hpage]
          exact stored_length_le _
        calc ((evicted env s i).loadPage env (cfg.pageAddr addr) i).cache.block i
            = (evicted env s i).stored (cfg.pageAddr addr / cfg.pageSize) := hload.block hfull
          _ = s.stored (cfg.pageAddr addr / cfg.pageSize) := hkept.symm
          _ = s.contents (cfg.pageAddr addr) := hcont.symm
      · intro pageAddr hd hp
        exact (miss_contents h hlast hev hload hshape hown hd hp).mpr fun _ => hspared

/-! ## Rounds

An access looks up one page in every round of its loop and copies a chunk from or to it. -/

/-- One round: the memory before it, the address it looks up, the bytes it handles, the page that
the lookup returns, and the memory after the lookup and after the copy. -/
structure Round (cfg : MemCfg) where
  start : SwapMemory cfg
  addr : Nat
  size : Nat
  page : Fin cfg.pages
  found : SwapMemory cfg
  done : SwapMemory cfg

/-- The bytes of the page that the round handles. -/
def Round.bytes (r : Round cfg) : List Byte :=
  Bytes.readAt (r.found.pages r.page).data (cfg.pageOffset r.addr) r.size

/-- A chunk copied into a page. -/
def putChunk (self : SwapMemory cfg) (page : Fin cfg.pages) (off : Nat) (bs : List Byte) :
    SwapMemory cfg :=
  self.setPage page
    { self.pages page with data := Bytes.writeAt (self.pages page).data off bs, dirty := true }

/-- The rounds of `readLoop`. -/
def readRounds (env : SwapEnv) : Nat → SwapMemory cfg → Nat → Nat → List (Round cfg)
  | 0, _, _, _ => []
  | fuel + 1, self, localAddr, rest =>
      if rest = 0 then []
      else
        match self.lookupPage env localAddr with
        | none => []
        | some (found, page) =>
            let chunk := chunkSize cfg localAddr rest
            ⟨self, localAddr, chunk, page, found, found⟩
              :: readRounds env fuel found (localAddr + chunk) (rest - chunk)

/-- The rounds of `writeLoop`. -/
def writeRounds (env : SwapEnv) : Nat → SwapMemory cfg → Nat → List Byte → List (Round cfg)
  | 0, _, _, _ => []
  | fuel + 1, self, localAddr, buf =>
      if buf.length = 0 then []
      else
        match self.lookupPage env localAddr with
        | none => []
        | some (found, page) =>
            let chunk := chunkSize cfg localAddr buf.length
            let done := found.putChunk page (cfg.pageOffset localAddr) (buf.take chunk)
            ⟨self, localAddr, chunk, page, found, done⟩
              :: writeRounds env fuel done (localAddr + chunk) (buf.drop chunk)

/-- The rounds of `cmpLoop`, which ends with the first difference. -/
def cmpRounds (env : SwapEnv) : Nat → SwapMemory cfg → Nat → List Byte → List (Round cfg)
  | 0, _, _, _ => []
  | fuel + 1, self, localAddr, buf =>
      if buf.length = 0 then []
      else
        match self.lookupPage env localAddr with
        | none => []
        | some (found, page) =>
            let chunk := chunkSize cfg localAddr buf.length
            ⟨self, localAddr, chunk, page, found, found⟩ ::
              match memcmp (Bytes.readAt (found.pages page).data (cfg.pageOffset localAddr) chunk)
                  (buf.take chunk) with
              | .eq => cmpRounds env fuel found (localAddr + chunk) (buf.drop chunk)
              | _ => []

/-- The rounds of an access. -/
def MemOp.rounds (env : SwapEnv) (self : SwapMemory cfg) : MemOp → List (Round cfg)
  | .read addr size => readRounds env size self addr size
  | .write addr buf => writeRounds env buf.length self addr buf
  | .cmp addr buf => cmpRounds env buf.length self addr buf

/-- The addresses of an access. -/
def MemOp.covers : MemOp → Nat → Prop
  | .read addr size, a => addr ≤ a ∧ a < addr + size
  | .write addr buf, a => addr ≤ a ∧ a < addr + buf.length
  | .cmp addr buf, a => addr ≤ a ∧ a < addr + buf.length

/-- The round used the page of its address, found there what the address stands for, and left what
the other addresses stand for, the bytes of a page that its file has only in part included. -/
structure Round.Contained (r : Round cfg) : Prop where
  own : (r.found.pages r.page).addr = cfg.pageAddr r.addr
  data : r.found.cache.block r.page = r.start.contents (cfg.pageAddr r.addr)
  others : ∀ pageAddr, cfg.pageSize ∣ pageAddr → pageAddr ≠ cfg.pageAddr r.addr →
    r.start.contents pageAddr <+: r.done.contents pageAddr

/-- What a round does: a lookup, and perhaps a chunk into the page. -/
structure Round.Goes (env : SwapEnv) (r : Round cfg) : Prop where
  lookup : r.start.lookupPage env r.addr = some (r.found, r.page)
  copy : r.done = r.found ∨ ∃ off bs, r.done = r.found.putChunk r.page off bs

/-- From one memory to another by rounds. -/
inductive Rounds (env : SwapEnv) : SwapMemory cfg → List (Round cfg) → SwapMemory cfg → Prop
  | nil (s : SwapMemory cfg) : Rounds env s [] s
  | cons {s t : SwapMemory cfg} {r : Round cfg} {rs : List (Round cfg)} (hstart : r.start = s)
      (hr : r.Goes env) (hrs : Rounds env r.done rs t) : Rounds env s (r :: rs) t

/-! ## A chunk into a page -/

theorem putChunk_addr (i : Fin cfg.pages) (off : Nat) (bs : List Byte) (k : Fin cfg.pages) :
    ((s.putChunk i off bs).pages k).addr = (s.pages k).addr := by
  unfold putChunk
  exact setPage_same MemPage.addr (by rfl) k

theorem Shape.putChunk (h : s.Shape j l) (i : Fin cfg.pages) (off : Nat) (bs : List Byte) :
    (s.putChunk i off bs).Shape j l where
  layout := ⟨h.layout.mask, h.layout.shift, h.layout.le, fun k hk => absurd hk (Nat.not_lt_zero k)⟩
  aligned := by
    intro k
    rw [putChunk_addr]
    exact h.aligned k
  linked := by
    have hlinks : (s.putChunk i off bs).links = s.links := setPage_links rfl rfl
    rw [hlinks]
    exact h.linked
  all := h.all

/-- It changes what the page's own address stands for. -/
theorem putChunk_contents (h : s.Shape j l) (i : Fin cfg.pages) (off : Nat) (bs : List Byte)
    {pageAddr : Nat} (hp : (s.pages i).addr ≠ pageAddr) :
    (s.putChunk i off bs).contents pageAddr = s.contents pageAddr := by
  have htest : (s.putChunk i off bs).hasAddr pageAddr = s.hasAddr pageAddr := by
    funext k
    rw [hasAddr, hasAddr, putChunk_addr]
  refine h.contents_congr (h.putChunk i off bs) (by rw [htest]) ?_ (fun _ => rfl)
  intro k hk
  have hki : k ≠ i := fun he => hp (he ▸ hk)
  simp [cache, SwapMemory.putChunk, setPage, Function.update_of_ne hki]

/-! ## One round, and all rounds of an access -/

/-- A round is contained if and only if its lookup is safe. -/
theorem Round.Goes.contained_iff {r : Round cfg} (hr : r.Goes env) (hpages : 2 ≤ cfg.pages)
    (h : r.start.Shape j l) :
    (∃ l', r.done.Shape j l') ∧ (r.Contained ↔ LookupSafe env r.start r.addr) := by
  obtain ⟨t, i, hlook, hshape, hiff⟩ := lookup_contained_iff hpages h env r.addr
  rw [hr.lookup] at hlook
  obtain ⟨hfound, hpage⟩ := Prod.mk.inj (Option.some.inj hlook)
  rw [← hfound, ← hpage] at hshape hiff
  rw [← hiff]
  rcases hr.copy with hdone | ⟨off, bs, hdone⟩
  · rw [hdone]
    refine ⟨⟨_, hshape⟩, ?_, ?_⟩
    · rintro ⟨hown, hdata, hothers⟩
      rw [hdone] at hothers
      exact ⟨hown, hdata, hothers⟩
    · rintro ⟨hown, hdata, hothers⟩
      refine ⟨hown, hdata, ?_⟩
      rw [hdone]
      exact hothers
  · rw [hdone]
    -- the copy goes to the page's own address, so the other addresses see the lookup only
    have hcopy : (r.found.pages r.page).addr = cfg.pageAddr r.addr → ∀ pageAddr,
        pageAddr ≠ cfg.pageAddr r.addr → r.done.contents pageAddr = r.found.contents pageAddr := by
      intro hown pageAddr hp
      rw [hdone]
      exact putChunk_contents hshape r.page off bs fun he => hp (he.symm.trans hown)
    refine ⟨⟨_, hshape.putChunk r.page off bs⟩, ?_, ?_⟩
    · rintro ⟨hown, hdata, hothers⟩
      refine ⟨hown, hdata, ?_⟩
      intro pageAddr hd hp
      rw [← hcopy hown pageAddr hp]
      exact hothers pageAddr hd hp
    · rintro ⟨hown, hdata, hothers⟩
      refine ⟨hown, hdata, ?_⟩
      intro pageAddr hd hp
      rw [hcopy hown pageAddr hp]
      exact hothers pageAddr hd hp

/-- Rounds keep the shape, and each is contained if and only if its lookup is safe. -/
theorem Rounds.contained_iff {t : SwapMemory cfg} {rs : List (Round cfg)} (hrs : Rounds env s rs t)
    (hpages : 2 ≤ cfg.pages) (h : s.Shape j l) :
    (∃ l', t.Shape j l') ∧ ∀ r ∈ rs, (r.Contained ↔ LookupSafe env r.start r.addr) := by
  induction hrs generalizing l with
  | nil s => exact ⟨⟨l, h⟩, fun r hr => absurd hr List.not_mem_nil⟩
  | cons hstart hr _ ih =>
      subst hstart
      obtain ⟨⟨l', hdone⟩, hiff⟩ := hr.contained_iff hpages h
      obtain ⟨hshape, hall⟩ := ih hdone
      refine ⟨hshape, ?_⟩
      intro r' hr'
      rcases List.mem_cons.mp hr' with rfl | hmem
      · exact hiff
      · exact hall r' hmem

/-- Contained rounds leave every page that none of them is about. -/
theorem Rounds.contents {t : SwapMemory cfg} {rs : List (Round cfg)} (hrs : Rounds env s rs t)
    (hcont : ∀ r ∈ rs, r.Contained) {pageAddr : Nat} (hdvd : cfg.pageSize ∣ pageAddr)
    (hp : ∀ r ∈ rs, pageAddr ≠ cfg.pageAddr r.addr) :
    s.contents pageAddr <+: t.contents pageAddr := by
  induction hrs with
  | nil s => exact List.prefix_rfl
  | @cons s t r rs hstart _ _ ih =>
      subst hstart
      have hfirst : r.start.contents pageAddr <+: r.done.contents pageAddr :=
        (hcont r List.mem_cons_self).others pageAddr hdvd (hp r List.mem_cons_self)
      exact hfirst.trans (ih (fun q hq => hcont q (List.mem_cons_of_mem _ hq))
        (fun q hq => hp q (List.mem_cons_of_mem _ hq)))

/-! ## The loops run through their rounds -/

theorem readLoop_rounds (env : SwapEnv) (hpages : 2 ≤ cfg.pages) (h : s.Shape j l)
    (fuel addr rest : Nat) (buf : List Byte) :
    ∃ t, readLoop env fuel s addr rest buf
        = some (t, buf ++ (readRounds env fuel s addr rest).flatMap Round.bytes)
      ∧ Rounds env s (readRounds env fuel s addr rest) t := by
  induction fuel generalizing s l addr rest buf with
  | zero => exact ⟨s, by simp [readLoop, readRounds], .nil s⟩
  | succ fuel ih =>
      rw [readLoop, readRounds]
      by_cases h0 : rest = 0
      · rw [if_pos h0, if_pos h0]
        exact ⟨s, by simp, .nil s⟩
      · rw [if_neg h0, if_neg h0]
        obtain ⟨t, page, hlook, hshape, -⟩ := lookup_contained_iff hpages h env addr
        simp only [hlook]
        obtain ⟨u, hu, hrounds⟩ := ih hshape (addr + chunkSize cfg addr rest)
          (rest - chunkSize cfg addr rest)
          (buf ++ Bytes.readAt (t.pages page).data (cfg.pageOffset addr) (chunkSize cfg addr rest))
        refine ⟨u, ?_, .cons rfl ⟨hlook, Or.inl rfl⟩ hrounds⟩
        rw [hu, List.flatMap_cons, List.append_assoc]
        rfl

theorem writeLoop_rounds (env : SwapEnv) (hpages : 2 ≤ cfg.pages) (h : s.Shape j l)
    (fuel addr : Nat) (buf : List Byte) :
    ∃ t, writeLoop env fuel s addr buf = some t
      ∧ Rounds env s (writeRounds env fuel s addr buf) t := by
  induction fuel generalizing s l addr buf with
  | zero => exact ⟨s, rfl, .nil s⟩
  | succ fuel ih =>
      rw [writeLoop, writeRounds]
      by_cases h0 : buf.length = 0
      · rw [if_pos h0, if_pos h0]
        exact ⟨s, rfl, .nil s⟩
      · rw [if_neg h0, if_neg h0]
        obtain ⟨t, page, hlook, hshape, -⟩ := lookup_contained_iff hpages h env addr
        simp only [hlook]
        obtain ⟨u, hu, hrounds⟩ := ih
          (hshape.putChunk page (cfg.pageOffset addr) (buf.take (chunkSize cfg addr buf.length)))
          (addr + chunkSize cfg addr buf.length) (buf.drop (chunkSize cfg addr buf.length))
        exact ⟨u, hu, .cons rfl ⟨hlook, Or.inr ⟨_, _, rfl⟩⟩ hrounds⟩

theorem cmpLoop_rounds (env : SwapEnv) (hpages : 2 ≤ cfg.pages) (h : s.Shape j l)
    (fuel addr : Nat) (buf : List Byte) :
    ∃ t res, cmpLoop env fuel s addr buf = some (t, res)
      ∧ Rounds env s (cmpRounds env fuel s addr buf) t := by
  induction fuel generalizing s l addr buf with
  | zero => exact ⟨s, .eq, rfl, .nil s⟩
  | succ fuel ih =>
      rw [cmpLoop, cmpRounds]
      by_cases h0 : buf.length = 0
      · rw [if_pos h0, if_pos h0]
        exact ⟨s, .eq, rfl, .nil s⟩
      · rw [if_neg h0, if_neg h0]
        obtain ⟨t, page, hlook, hshape, -⟩ := lookup_contained_iff hpages h env addr
        simp only [hlook]
        cases memcmp (Bytes.readAt (t.pages page).data (cfg.pageOffset addr)
            (chunkSize cfg addr buf.length)) (buf.take (chunkSize cfg addr buf.length)) with
        | lt => exact ⟨t, .lt, rfl, .cons rfl ⟨hlook, Or.inl rfl⟩ (.nil t)⟩
        | gt => exact ⟨t, .gt, rfl, .cons rfl ⟨hlook, Or.inl rfl⟩ (.nil t)⟩
        | eq =>
            obtain ⟨u, res, hu, hrounds⟩ := ih hshape (addr + chunkSize cfg addr buf.length)
              (buf.drop (chunkSize cfg addr buf.length))
            exact ⟨u, res, hu, .cons rfl ⟨hlook, Or.inl rfl⟩ hrounds⟩

/-! ## The rounds are about the addresses of the access -/

theorem readRounds_covered (fuel addr rest : Nat) :
    ∀ r ∈ readRounds env fuel s addr rest, addr ≤ r.addr ∧ r.addr < addr + rest := by
  induction fuel generalizing s addr rest with
  | zero => exact fun r hr => absurd hr List.not_mem_nil
  | succ fuel ih =>
      intro r hr
      rw [readRounds] at hr
      split at hr
      · exact absurd hr List.not_mem_nil
      rename_i h0
      have hle := chunkSize_le cfg addr rest
      split at hr
      · exact absurd hr List.not_mem_nil
      rcases List.mem_cons.mp hr with rfl | hmem
      · exact ⟨le_refl _, by show addr < addr + rest; omega⟩
      · have := ih _ _ r hmem
        omega

theorem writeRounds_covered (fuel addr : Nat) (buf : List Byte) :
    ∀ r ∈ writeRounds env fuel s addr buf, addr ≤ r.addr ∧ r.addr < addr + buf.length := by
  induction fuel generalizing s addr buf with
  | zero => exact fun r hr => absurd hr List.not_mem_nil
  | succ fuel ih =>
      intro r hr
      rw [writeRounds] at hr
      split at hr
      · exact absurd hr List.not_mem_nil
      rename_i h0
      have hle := chunkSize_le cfg addr buf.length
      split at hr
      · exact absurd hr List.not_mem_nil
      rcases List.mem_cons.mp hr with rfl | hmem
      · exact ⟨le_refl _, by show addr < addr + buf.length; omega⟩
      · have hin := ih _ _ r hmem
        rw [List.length_drop] at hin
        omega

theorem cmpRounds_covered (fuel addr : Nat) (buf : List Byte) :
    ∀ r ∈ cmpRounds env fuel s addr buf, addr ≤ r.addr ∧ r.addr < addr + buf.length := by
  induction fuel generalizing s addr buf with
  | zero => exact fun r hr => absurd hr List.not_mem_nil
  | succ fuel ih =>
      intro r hr
      rw [cmpRounds] at hr
      split at hr
      · exact absurd hr List.not_mem_nil
      rename_i h0
      have hle := chunkSize_le cfg addr buf.length
      split at hr
      · exact absurd hr List.not_mem_nil
      rcases List.mem_cons.mp hr with rfl | hmem
      · exact ⟨le_refl _, by show addr < addr + buf.length; omega⟩
      · split at hmem
        · have hin := ih _ _ r hmem
          rw [List.length_drop] at hin
          omega
        · exact absurd hmem List.not_mem_nil

theorem MemOp.rounds_covered (op : MemOp) : ∀ r ∈ op.rounds env s, op.covers r.addr := by
  cases op with
  | read addr size => exact readRounds_covered size addr size
  | write addr buf => exact writeRounds_covered buf.length addr buf
  | cmp addr buf => exact cmpRounds_covered buf.length addr buf

/-- **Every access returns**, after its rounds, and a read returns what they found. -/
theorem pagedOp_rounds (hpages : 2 ≤ cfg.pages) (h : s.Shape j l) (env : SwapEnv) (op : MemOp) :
    ∃ t answer, pagedOp env s op = some (t, answer) ∧ Rounds env s (op.rounds env s) t
      ∧ ∀ addr size, op = .read addr size →
          answer = .bytes ((op.rounds env s).flatMap Round.bytes) := by
  cases op with
  | read addr size =>
      obtain ⟨t, ht, hrounds⟩ := readLoop_rounds env hpages h size addr size []
      refine ⟨t, _, ?_, hrounds, fun _ _ _ => rfl⟩
      simp only [pagedOp, memRead, ht, Option.map_some, List.nil_append]
      rfl
  | write addr buf =>
      obtain ⟨t, ht, hrounds⟩ := writeLoop_rounds env hpages h buf.length addr buf
      refine ⟨t, .done, ?_, hrounds, ?_⟩
      · simp only [pagedOp, memWrite, ht, Option.map_some]
      · intro _ _ hop
        cases hop
  | cmp addr buf =>
      obtain ⟨t, res, ht, hrounds⟩ := cmpLoop_rounds env hpages h buf.length addr buf
      refine ⟨t, .order res, ?_, hrounds, ?_⟩
      · simp only [pagedOp, memCmp, ht, Option.map_some]
      · intro _ _ hop
        cases hop

/-! ## Every state -/

/-- The states of the memory: after `mem_init`, any accesses, each with its own failures. -/
inductive PagedReachable : SwapMemory cfg → Prop
  | init {env : SwapEnv} {size nSwapFiles : Nat} {self : SwapMemory cfg}
      (h : memInit cfg env size nSwapFiles = .ready self) : PagedReachable self
  | access {env : SwapEnv} {s t : SwapMemory cfg} {op : MemOp} {answer : MemAnswer}
      (hs : PagedReachable s) (h : pagedOp env s op = some (t, answer)) : PagedReachable t

theorem PagedReachable.shape (hpages : 2 ≤ cfg.pages) (hs : PagedReachable s) :
    ∃ j l, s.Shape j l := by
  induction hs with
  | init h =>
      obtain ⟨j, hshape⟩ := memInit_shape h
      exact ⟨j, _, hshape⟩
  | @access env s t op answer _ h ih =>
      obtain ⟨j, l, hshape⟩ := ih
      obtain ⟨t', answer', hop, hrounds, -⟩ := pagedOp_rounds hpages hshape env op
      rw [h] at hop
      cases hop
      obtain ⟨l', hl⟩ := (hrounds.contained_iff hpages hshape).1
      exact ⟨j, l', hl⟩

/-- **Containment of swap failures.** In every state of a memory with two cached pages, and whatever
fails: an access returns, and a read returns the data of the pages that its rounds found. A round
used its own page, with what its address stands for, and left what all other addresses stand for, if
and only if its lookup was safe. When all were, the access left every page outside it. A whole page
is left as it was; one that its file does not have to the end may get bytes where it had none. -/
theorem swap_failure_contained_iff (hpages : 2 ≤ cfg.pages) (hs : PagedReachable s) (env : SwapEnv)
    (op : MemOp) :
    ∃ t answer, pagedOp env s op = some (t, answer) ∧ Rounds env s (op.rounds env s) t
      ∧ (∀ addr size, op = .read addr size →
          answer = .bytes ((op.rounds env s).flatMap Round.bytes))
      ∧ (∀ r ∈ op.rounds env s, (r.Contained ↔ LookupSafe env r.start r.addr))
      ∧ ((∀ r ∈ op.rounds env s, LookupSafe env r.start r.addr) →
          ∀ pageAddr, cfg.pageSize ∣ pageAddr → (∀ a, op.covers a → pageAddr ≠ cfg.pageAddr a) →
            s.contents pageAddr <+: t.contents pageAddr) := by
  obtain ⟨j, l, hshape⟩ := hs.shape hpages
  obtain ⟨t, answer, hop, hrounds, hbytes⟩ := pagedOp_rounds hpages hshape env op
  obtain ⟨-, hiff⟩ := hrounds.contained_iff hpages hshape
  refine ⟨t, answer, hop, hrounds, hbytes, hiff, ?_⟩
  intro hsafe pageAddr hdvd hout
  exact hrounds.contents (fun r hr => (hiff r hr).mpr (hsafe r hr)) hdvd
    fun r hr => hout r.addr (op.rounds_covered r hr)

/-- A DOS on which every seek, tell, read and write fails at once. -/
def deadDisk : SwapEnv := { freshDisk with fault := fun _ => some 0 }

/-- 1 MB in one swap file, and a byte written behind the cached pages when nothing works. -/
theorem swap_failure_contained_iff_dead :
    ∃ self : SwapMemory memRv32, memInit memRv32 freshDisk (2 ^ 20) 1 = .ready self
      ∧ ∃ t answer, pagedOp deadDisk self (.write 0x50000 [1#8]) = some (t, answer)
        ∧ Rounds deadDisk self ((MemOp.write 0x50000 [1#8]).rounds deadDisk self) t
        ∧ (∀ addr size, MemOp.write 0x50000 [1#8] = .read addr size →
            answer =
              .bytes (((MemOp.write 0x50000 [1#8]).rounds deadDisk self).flatMap Round.bytes))
        ∧ (∀ r ∈ (MemOp.write 0x50000 [1#8]).rounds deadDisk self,
            (r.Contained ↔ LookupSafe deadDisk r.start r.addr))
        ∧ ((∀ r ∈ (MemOp.write 0x50000 [1#8]).rounds deadDisk self,
              LookupSafe deadDisk r.start r.addr) →
            ∀ pageAddr, memRv32.pageSize ∣ pageAddr →
              (∀ a, (MemOp.write 0x50000 [1#8]).covers a → pageAddr ≠ memRv32.pageAddr a) →
              self.contents pageAddr <+: t.contents pageAddr) := by
  obtain ⟨self, hself⟩ := memInit_ready memRv32 freshDisk (fun _ => rfl)
    (2 ^ 20) 1 (by decide) (fun _ => rfl) (fun _ => rfl) (fun _ => rfl)
    (by decide)
  exact ⟨self, hself, swap_failure_contained_iff (by decide) (.init hself) deadDisk
    (.write 0x50000 [1#8])⟩

/-- The first byte of every page after `mem_init` on a new file. -/
theorem fresh_head {self : SwapMemory memRv32}
    (hself : memInit memRv32 freshDisk (2 ^ 20) 1 = .ready self) {p : Nat} (hp : p < 512) :
    (self.contents (p * memRv32.pageSize)).head? = some 0#8 := by
  obtain ⟨hloaded, -, -, hstored⟩ :=
    memInit_loaded (j := 20) (fun _ => rfl) hself (by decide) (by decide)
  obtain ⟨j, hshape⟩ := memInit_shape hself
  have hzero : (self.stored p).head? = some 0#8 := by
    have hsize : memRv32.pageSize = 2048 := rfl
    rw [hstored p (by rw [hsize]; omega), List.head?_eq_getElem?, Bytes.readAt_getElem?]
    rfl
  rw [hshape.contents_eq, Nat.mul_div_cancel _ memRv32.pageSize_pos]
  cases hf : (List.finRange memRv32.pages).find? (self.hasAddr (p * memRv32.pageSize)) with
  | none => exact hzero
  | some i =>
      have haddr : (self.pages i).addr = p * memRv32.pageSize := by
        simpa [hasAddr] using List.find?_some hf
      have hi : i.val = p :=
        Nat.eq_of_mul_eq_mul_right memRv32.pageSize_pos ((hloaded i).addr.symm.trans haddr)
      simp only [(hloaded i).block, hi, hzero]

/-- The page at `0x50000` cannot be loaded: the byte written to it is in the page at `0x4F800`. -/
theorem dead_write_spills :
    ∃ self t : SwapMemory memRv32, memInit memRv32 freshDisk (2 ^ 20) 1 = .ready self
      ∧ pagedOp deadDisk self (.write 0x50000 [1#8]) = some (t, .done)
      ∧ (self.contents 0x4F800).head? = some 0#8 ∧ (t.contents 0x4F800).head? = some 1#8 := by
  obtain ⟨self, hself⟩ := memInit_ready memRv32 freshDisk (fun _ => rfl)
    (2 ^ 20) 1 (by decide) (fun _ => rfl) (fun _ => rfl) (fun _ => rfl)
    (by decide)
  obtain ⟨hloaded, -, -, -⟩ :=
    memInit_loaded (j := 20) (fun _ => rfl) hself (by decide) (by decide)
  obtain ⟨j, hshape⟩ := memInit_shape hself
  rcases lookup_cases hshape deadDisk 0x50000 with ⟨i, hfind, -, -⟩ | ⟨-, i, hlast, -, hlook⟩
  · -- the cached pages end below
    have haddr : (self.pages i).addr = memRv32.pageAddr 0x50000 := by
      simpa [hasAddr] using List.find?_some hfind
    rw [(hloaded i).addr] at haddr
    have hsize : memRv32.pageSize = 2048 := rfl
    have hpage : memRv32.pageAddr 0x50000 = 160 * 2048 := rfl
    rw [hsize, hpage] at haddr
    have hlt : i.val < 160 := i.isLt
    omega
  · have hi : i = ⟨159, by decide⟩ := by
      have hdec : (List.finRange memRv32.pages).getLast? = some ⟨159, by decide⟩ := by decide
      exact Option.some.inj (hlast.symm.trans hdec)
    have hev := evicted_spec deadDisk hshape (hshape.last_ne_head (by decide) hlast)
    have hload := loadPage_outcome deadDisk (evicted deadDisk self i) i
      (by decide : memRv32.pageSize ∣ memRv32.pageAddr 0x50000)
    have hfound := hload.shape hev.shape (by decide)
    have haddr : (((evicted deadDisk self i).loadPage deadDisk (memRv32.pageAddr 0x50000) i).pages
        i).addr = 0x4F800 := by
      have hshort : ¬LoadFull deadDisk (evicted deadDisk self i) (memRv32.pageAddr 0x50000) := by
        rintro ⟨f, -, hk, -⟩
        cases hk
      rw [hload.short hshort, hev.addr, (hloaded i).addr, hi]
      rfl
    generalize (evicted deadDisk self i).loadPage deadDisk (memRv32.pageAddr 0x50000) i = found
      at hlook hfound haddr
    refine ⟨self, found.putChunk i 0 [1#8], hself, ?_, fresh_head hself (p := 159) (by decide), ?_⟩
    · simp only [pagedOp, memWrite, List.length_singleton, writeLoop, hlook]
      rfl
    · have hdone := hfound.putChunk i 0 [1#8]
      have hfirst : (found.putChunk i 0 [1#8]).hasAddr 0x4F800 i = true := by
        simp [hasAddr, SwapMemory.putChunk, setPage, haddr]
      rw [hdone.contents_eq, List.find?_cons, hfirst]
      simp only [cache, List.head?_eq_getElem?, Bytes.readAt_getElem?, SwapMemory.putChunk, setPage,
        Function.update_self]
      rfl

end SwapMemory

end RV640
