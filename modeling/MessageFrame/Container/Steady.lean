import MessageFrame.Container.Pressure

/-!
# Steady use

A container with room for `smallCapacity` entries in its vector, and a hint that asks for no more,
is used over and over: filled, searched, updated and cleared. As long as no call converts it, it
allocates no storage at all, so that it makes no difference which allocations would fail
(`no_allocation_iff`); and as long as it is not cleared either, the pointers into it that a client
has obtained stay good (`pointer_valid_iff`). Both conditions are exact.

That an insertion moves no entry is why the pointers stay good: the vector is never reallocated,
since all of its room was reserved before, and an entry never changes its position in it.
-/

namespace MsgFrame

open Msgpack AssocList

namespace Memory

variable {μ : Type} [UnorderedMap μ ParameterKey ParameterValue] {fails : ℕ → Bool}
  {s : Memory μ}

/-! ### Allocations are counted -/

omit [UnorderedMap μ ParameterKey ParameterValue] in
/-- An allocation is counted, whether it succeeds or fails. -/
private theorem keeps_allocate (n : ℕ) :
    Proc.Keeps (fun s : Memory μ => n ≤ s.attempts) (allocate fails) := by
  intro s hs
  cases hf : fails s.attempts with
  | true =>
    rw [allocate_of_fails hf]
    exact Nat.le_succ_of_le hs
  | false =>
    rw [allocate_of_not_fails hf]
    exact Nat.le_succ_of_le hs

omit [UnorderedMap μ ParameterKey ParameterValue] in
private theorem keeps_onContainer {α : Type} (n : ℕ) (x : Proc (HybridMessageMap μ) α) :
    Proc.Keeps (fun s : Memory μ => n ≤ s.attempts) (onContainer x) := by
  intro s hs
  unfold onContainer Proc.onField
  cases x s.container with
  | returned a m => exact hs
  | threw m => exact hs
  | undefined e => trivial

private theorem keeps_reserveMap (n k : ℕ) :
    Proc.Keeps (fun s : Memory μ => n ≤ s.attempts) (reserveMap fails k) := by
  intro s hs
  unfold reserveMap
  rw [Proc.get_bind]
  exact Proc.Keeps.bind (.eval _) (fun _ => (keeps_allocate n).bind fun _ =>
    keeps_onContainer n _) s hs

private theorem keeps_convertEntry (n i : ℕ) :
    Proc.Keeps (fun s : Memory μ => n ≤ s.attempts) (convertEntry fails i) := by
  intro s hs
  unfold convertEntry
  rw [Proc.get_bind]
  exact Proc.Keeps.bind (.eval _) (fun pair => (keeps_allocate n).bind fun _ =>
    (keeps_onContainer n _).bind fun _ => keeps_onContainer n _) s hs

/-- A conversion allocates, if only the buckets of the map. -/
private theorem attempts_lt_of_convertToMap (fails : ℕ → Bool) (s : Memory μ) :
    Proc.Leaves (fun s' => s.attempts < s'.attempts) (convertToMap fails s) := by
  obtain ⟨⟨mode, l, cfg, spare⟩, capacity, attempts⟩ := s
  have hloop : Proc.Keeps (fun s' : Memory μ => attempts + 1 ≤ s'.attempts) (do
      let s ← Proc.get
      Proc.forEach (convertEntry fails) (List.range s.container.vectorStorage.length)
      onContainer (Proc.modify fun m => { m with vectorStorage := [] })
      Proc.modify fun s => { s with capacity := 0 }) := by
    intro t ht
    rw [Proc.get_bind]
    exact Proc.Keeps.bind (.forEach _ fun i => keeps_convertEntry _ i) (fun _ =>
      (keeps_onContainer _ _).bind fun _ _ h => h) t ht
  have hensure := ensureMap_eq fails ⟨⟨false, l, cfg, spare⟩, capacity, attempts⟩
  have hbody : convertToMap fails ⟨⟨mode, l, cfg, spare⟩, capacity, attempts⟩ = (do
      ensureMap fails
      reserveMap fails smallCapacity
      let s ← Proc.get
      Proc.forEach (convertEntry fails) (List.range s.container.vectorStorage.length)
      onContainer (Proc.modify fun m => { m with vectorStorage := [] })
      Proc.modify fun s => { s with capacity := 0 } : Proc (Memory μ) Unit)
        ⟨⟨false, l, cfg, spare⟩, capacity, attempts⟩ := rfl
  rw [hbody]
  cases spare with
  | none =>
    cases hf : fails attempts with
    | true =>
      simp only [hf, if_true] at hensure
      rw [Proc.bind_of_threw hensure]
      exact Nat.lt_succ_self attempts
    | false =>
      simp only [hf, Bool.false_eq_true, if_false] at hensure
      rw [Proc.bind_of_returned hensure]
      exact ((keeps_reserveMap (attempts + 1) smallCapacity).bind fun _ => hloop) _ le_rfl
  | some map =>
    have hreserve := reserveMap_eq fails smallCapacity
      ⟨⟨false, l, cfg, some map⟩, capacity, attempts⟩ rfl
    rw [Proc.bind_of_returned hensure]
    cases hf : fails attempts with
    | true =>
      simp only [hf, if_true] at hreserve
      rw [Proc.bind_of_threw hreserve]
      exact Nat.lt_succ_self attempts
    | false =>
      simp only [hf, Bool.false_eq_true, if_false] at hreserve
      rw [Proc.bind_of_returned hreserve]
      exact hloop _ le_rfl

variable [LawfulUnorderedMap μ]

variable (fails) in
/-- A call that converts allocates. -/
private theorem attempts_lt_of_converts (h : s.container.Inv) {c : MapCall}
    (hc : c.Converts s.container) :
    Proc.Leaves (fun s' => s.attempts < s'.attempts) (c.execIn fails s) := by
  obtain ⟨hmode, hfull, key, val, hop⟩ := hc
  have hadd : ∀ (flatKey : FlatKey) (val : Arg),
      Proc.Leaves (fun s' => s.attempts < s'.attempts) (addFlat fails flatKey val s) := by
    intro flatKey val
    unfold addFlat
    rw [Proc.get_bind, if_pos hmode, if_pos hfull]
    exact (attempts_lt_of_convertToMap fails s).bind fun _ => keeps_onContainer _ _
  rw [← c.normal_op] at hop
  rw [← c.normal_execIn]
  obtain ⟨flatKey, arg, hnormal⟩ | ⟨flatKey, arg, hnormal⟩ | ⟨flatKey, arg, hnormal⟩ |
    ⟨flatKey, hnormal⟩ | hnormal := c.normal_cases
  · rw [hnormal]
    exact (hadd flatKey arg).bind fun _ => .pure _
  · rw [hnormal] at hop ⊢
    obtain ⟨hupsert, hnot⟩ : MapOp.upsert flatKey.view arg.value = .upsert key val ∧
        ⟨key⟩ ∉ keys s.container.entries := by
      rcases hop with hop | hop
      · cases hop
      · exact hop
    obtain rfl : flatKey.view = key := by
      injection hupsert
    have hset : setFlat fails flatKey arg s = addFlat fails flatKey arg s := by
      unfold setFlat HybridMessageMap.findFlatRef
      rw [Proc.get_bind, HybridMessageMap.findViewRef_eq h,
        (HybridMessageMap.locate_eq_none h).mpr hnot]
      rfl
    refine Proc.Leaves.bind ?_ fun _ => .pure _
    rw [hset]
    exact hadd flatKey arg
  · rw [hnormal] at hop
    rcases hop with hop | ⟨hop, -⟩ <;> cases hop
  · rw [hnormal] at hop
    rcases hop with hop | ⟨hop, -⟩ <;> cases hop
  · rw [hnormal] at hop
    rcases hop with hop | ⟨hop, -⟩ <;> cases hop

/-! ### A container with room -/

omit [UnorderedMap μ ParameterKey ParameterValue] [LawfulUnorderedMap μ] in
private theorem onContainer_of_returned {α : Type} {x : Proc (HybridMessageMap μ) α} {a : α}
    {m' : HybridMessageMap μ} (h : x s.container = .returned a m') :
    onContainer x s = .returned a { s with container := m' } :=
  Proc.onField_of_returned h

omit [LawfulUnorderedMap μ] in
/-- A valid container in vector mode that has all the room it will need there. -/
structure Roomy (s : Memory μ) : Prop where
  inv : s.container.Inv
  mode : s.container.isVectorMode = true
  room : smallCapacity ≤ s.capacity
  hint : s.container.cfg.initialReserve ≤ smallCapacity

omit [LawfulUnorderedMap μ] in
/-- A container that could be constructed for so few entries has room for them. -/
theorem Roomy.of_construct {config : FrameConfig} {attempts : ℕ}
    (hconstruct : construct fails config attempts = .returned () s)
    (hhint : config.initialReserve ≤ smallCapacity) : Roomy s := by
  obtain ⟨hcontainer, hroom⟩ := construct_returned hconstruct
  have hmode : s.container.isVectorMode = true := by
    rw [hcontainer, HybridMessageMap.isVectorMode_ofConfig]
    exact decide_eq_true hhint
  refine ⟨?_, hmode, hroom hmode, ?_⟩
  · rw [hcontainer]
    exact HybridMessageMap.ofConfig_inv config
  · rw [hcontainer, HybridMessageMap.cfg_ofConfig]
    exact hhint

variable (fails) in
omit [LawfulUnorderedMap μ] in
private theorem addFlat_of_roomy (h : Roomy s)
    (hfull : ¬smallCapacity ≤ s.container.vectorStorage.length) (flatKey : FlatKey) (val : Arg) :
    ∃ m', HybridMessageMap.addFlat flatKey val s.container = .returned () m' ∧
      addFlat fails flatKey val s = .returned () { s with container := m' } ∧
      m'.isVectorMode = true := by
  have hroom : s.container.vectorStorage.length < s.capacity :=
    Nat.lt_of_lt_of_le (Nat.lt_of_not_le hfull) h.room
  have happend := emplaceBack_eq fails ⟨flatKey.view⟩ val.value s
  rw [if_pos hroom] at happend
  unfold HybridMessageMap.addFlat addFlat
  rw [Proc.get_bind, Proc.get_bind, if_pos h.mode, if_pos h.mode, if_neg hfull, if_neg hfull,
    happend]
  exact ⟨_, rfl, rfl, h.mode⟩

variable (fails) in
private theorem setFlat_of_roomy (h : Roomy s) (flatKey : FlatKey) (val : Arg)
    (hfull : ⟨flatKey.view⟩ ∉ keys s.container.entries →
      ¬smallCapacity ≤ s.container.vectorStorage.length) :
    ∃ m', HybridMessageMap.setFlat flatKey val s.container = .returned () m' ∧
      setFlat fails flatKey val s = .returned () { s with container := m' } ∧
      m'.isVectorMode = true := by
  unfold HybridMessageMap.setFlat setFlat HybridMessageMap.findFlatRef
  rw [Proc.get_bind, Proc.get_bind, HybridMessageMap.findViewRef_eq h.inv]
  cases hlocate : s.container.locate ⟨flatKey.view⟩ with
  | none =>
    have hnot := (HybridMessageMap.locate_eq_none h.inv).mp hlocate
    exact addFlat_of_roomy fails h (hfull hnot) flatKey val
  | some ref =>
    obtain ⟨m', hassign, has⟩ := HybridMessageMap.assignAt_spec h.inv hlocate val.value
    exact ⟨m', hassign, onContainer_of_returned hassign, has.mode.trans h.mode⟩

omit [LawfulUnorderedMap μ] in
/-- The vector keeps its room over a `clear`. -/
private theorem clear_of_roomy (h : Roomy s) : clear fails s =
    .returned () { s with container := .ofConfig s.container.cfg } := by
  have hsmall : ¬smallCapacity < s.reset.container.cfg.initialReserve := Nat.not_lt.mpr h.hint
  have hconfig : (.ofConfig s.container.cfg : HybridMessageMap μ) =
      { cfg := s.container.cfg } := if_neg (Nat.not_lt.mpr h.hint)
  have hreserve := reserveVector_eq fails smallCapacity s.reset
  rw [if_pos (show smallCapacity ≤ s.reset.capacity from h.room)] at hreserve
  have hprime : primeStorage fails s.reset = .returned () s.reset := by
    unfold primeStorage
    rw [Proc.get_bind, if_neg hsmall]
    exact hreserve
  rw [clear_eq, Proc.tryCatch_of_returned hprime, hconfig]
  rfl

variable (fails) in
/-- **A call on a container with room** that does not convert it allocates nothing, and does what
it does with ample memory. -/
theorem execIn_of_roomy (h : Roomy s) {c : MapCall} (hc : ¬c.Converts s.container) :
    ∃ r m', c.exec s.container = .returned r m' ∧
      c.execIn fails s = .returned r { s with container := m' } ∧
      Roomy { s with container := m' } := by
  obtain ⟨r, m', hexec, heff⟩ := c.exec_spec h.inv
  suffices hsuff : c.execIn fails s = .returned r { s with container := m' } ∧
      m'.isVectorMode = true by
    refine ⟨r, m', hexec, hsuff.1, heff.inv h.inv, hsuff.2, h.room, ?_⟩
    change m'.cfg.initialReserve ≤ smallCapacity
    rw [heff.cfg_eq]
    exact h.hint
  have hfull : ∀ key val, c.normal.op = .insert key val ∨
      (c.normal.op = .upsert key val ∧ ⟨key⟩ ∉ keys s.container.entries) →
      ¬smallCapacity ≤ s.container.vectorStorage.length := by
    intro key val hop hfull
    rw [c.normal_op] at hop
    exact hc ⟨h.mode, hfull, key, val, hop⟩
  rw [← c.normal_exec] at hexec
  rw [← c.normal_op] at heff
  rw [← c.normal_execIn]
  obtain ⟨flatKey, val, hnormal⟩ | ⟨flatKey, val, hnormal⟩ | ⟨flatKey, val, hnormal⟩ |
    ⟨flatKey, hnormal⟩ | hnormal := c.normal_cases
  · rw [hnormal] at hexec hfull ⊢
    obtain ⟨m₁, hbase, hthis, hmode⟩ := addFlat_of_roomy fails h
      (hfull _ _ (.inl rfl)) flatKey val
    obtain ⟨rfl, rfl⟩ := Outcome.returned.inj
      (hexec.symm.trans (Proc.bind_of_returned hbase _))
    exact ⟨Proc.bind_of_returned hthis _, hmode⟩
  · rw [hnormal] at hexec hfull ⊢
    obtain ⟨m₁, hbase, hthis, hmode⟩ := setFlat_of_roomy fails h flatKey val
      fun hnot => hfull _ _ (.inr ⟨rfl, hnot⟩)
    obtain ⟨rfl, rfl⟩ := Outcome.returned.inj
      (hexec.symm.trans (Proc.bind_of_returned hbase _))
    exact ⟨Proc.bind_of_returned hthis _, hmode⟩
  · rw [hnormal] at hexec heff ⊢
    refine ⟨onContainer_of_returned hexec, ?_⟩
    cases heff with
    | replaceOld hmem has => exact has.mode.trans h.mode
    | replaceMissing hnot => exact h.mode
  · rw [hnormal] at hexec heff ⊢
    refine ⟨onContainer_of_returned hexec, ?_⟩
    cases heff with
    | lookup => exact h.mode
  · rw [hnormal] at hexec heff ⊢
    cases heff with
    | clear =>
      refine ⟨Proc.bind_of_returned (clear_of_roomy h) _, ?_⟩
      rw [HybridMessageMap.isVectorMode_ofConfig]
      exact decide_eq_true h.hint

private theorem not_converts_of_attempts (h : Roomy s) {c : MapCall} {s' : Memory μ}
    (hlead : Proc.Leads (c.execIn fails) s s') (hcount : s'.attempts = s.attempts) :
    ¬c.Converts s.container := by
  intro hc
  have hless := attempts_lt_of_converts fails h.inv hc
  rcases hlead with ⟨r, hexec⟩ | hexec
  · rw [hexec] at hless
    exact absurd hcount hless.ne'
  · rw [hexec] at hless
    exact absurd hcount hless.ne'

/-- **No allocation in steady use.** Take a container that was constructed for at most
`smallCapacity` entries. None of the calls of a run attempts to allocate storage exactly if none of
them converts the container; and then, whichever allocations would fail, the run goes as it goes
with ample memory. -/
theorem no_allocation_iff (fails : ℕ → Bool) {config : FrameConfig} {attempts : ℕ} {s₀ : Memory μ}
    (hhint : config.initialReserve ≤ smallCapacity)
    (hconstruct : construct fails config attempts = .returned () s₀) (calls : List MapCall) :
    (∀ done, done <+: calls → ∃ rs s, Proc.execAll (MapCall.execIn fails) done s₀ = .ok (rs, s) ∧
        s.attempts = s₀.attempts) ↔
      Proc.Along (MapCall.execIn fails) (fun c s => ¬c.Converts s.container) calls s₀ := by
  have h₀ := Roomy.of_construct hconstruct hhint
  refine Proc.along_iff (I := fun s => Roomy s ∧ s.attempts = s₀.attempts) (fun _ h => h.2) ?_ ?_
    ⟨h₀, rfl⟩ (Proc.along_of_forall (fun _ _ => trivial) calls s₀)
  · rintro c s ⟨⟨h, hcount⟩, -, hc⟩
    obtain ⟨r, m', -, hthis, h'⟩ := execIn_of_roomy fails h hc
    rw [hthis]
    exact ⟨h', hcount⟩
  · rintro c s s' ⟨h, hcount⟩ - hlead hcount' hc
    exact not_converts_of_attempts h hlead (hcount'.trans hcount.symm) hc

/-- When all memory is gone a container is still filled and cleared. -/
theorem no_allocation_iff_cleared :
    ∃ rs s, Proc.execAll (MapCall.execIn fun i => decide (1 ≤ i))
        [.add [97] [98] (.lvalue .unknown), .clear, .set [97] [98] (.rvalue (.int64 1))]
        (⟨{}, smallCapacity, 1⟩ : Memory (ListMap ParameterKey ParameterValue)) = .ok (rs, s) ∧
      s.attempts = 1 := by
  have hconstruct : construct (fun i => decide (1 ≤ i)) {} 0 =
      .returned () (⟨{}, smallCapacity, 1⟩ : Memory (ListMap ParameterKey ParameterValue)) := rfl
  refine (no_allocation_iff _ (by decide) hconstruct _).mpr ?_ _ (List.prefix_refl _)
  exact .cons (fun h => absurd h.2.1 (by decide)) (.inl ⟨_, rfl⟩)
    (.cons (fun h => absurd h.2.1 (by decide)) (.inl ⟨_, rfl⟩)
    (.cons (fun h => absurd h.2.1 (by decide)) (.inl ⟨_, rfl⟩) trivial))

/-! ### Pointers into the container -/

omit [LawfulUnorderedMap μ] in
/-- In vector mode an entry keeps its position, whatever is inserted or written. -/
private theorem locate_of_effect {m m' : HybridMessageMap μ} {op : MapOp} {r : Reply}
    (heff : HybridMessageMap.Effect m op r m') (hop : op ≠ .clear)
    (hmode : m.isVectorMode = true) (hmode' : m'.isVectorMode = true) {key : ParameterKey}
    {ref : EntryRef} (href : m.locate key = some ref) : m'.locate key = some ref := by
  have hentries : ∀ {m : HybridMessageMap μ}, m.isVectorMode = true →
      m.locate key = (indexOf? key m.entries).map .vector := by
    intro m hmode
    rw [HybridMessageMap.locate, HybridMessageMap.entries, if_pos hmode, if_pos hmode]
  have hassigned : ∀ {k v}, HybridMessageMap.Assigned m k v m' → m'.locate key = some ref := by
    intro k v has
    rw [hentries hmode', has.entries, indexOf?_eq_of_keys (keys_replaceFirst k v m.entries),
      ← hentries hmode]
    exact href
  have hinserted : ∀ {k v}, HybridMessageMap.Inserted m k v m' → m'.locate key = some ref := by
    intro k v hins
    rcases hins.entries with ⟨-, -, he⟩ | ⟨hmap, -⟩
    · rw [hentries hmode, Option.map_eq_some_iff] at href
      obtain ⟨i, hi, hvec⟩ := href
      rw [hentries hmode', he, indexOf?_append hi, ← hvec]
      rfl
    · rw [hmode'] at hmap
      cases hmap
  cases heff with
  | insert hins => exact hinserted hins
  | upsertOld _ has => exact hassigned has
  | upsertNew _ hins => exact hinserted hins
  | replaceOld _ has => exact hassigned has
  | replaceMissing _ => exact href
  | lookup => exact href
  | clear => exact absurd rfl hop

/-- **Pointers stay good in steady use.** Take a container with room, and the pointer that a search
of it has returned. All through a run of calls no storage is allocated, the search returns the same
pointer, and through it the present value of the key is read, exactly if no call of the run converts
or clears the container. -/
theorem pointer_valid_iff (fails : ℕ → Bool) {s₀ : Memory μ} (h₀ : Roomy s₀)
    {keyView : ByteString} {ref : EntryRef}
    (href : s₀.container.findViewRef keyView = .ok (some ref)) (calls : List MapCall) :
    (∀ done, done <+: calls → ∃ rs s, Proc.execAll (MapCall.execIn fails) done s₀ = .ok (rs, s) ∧
        s.attempts = s₀.attempts ∧ s.container.findViewRef keyView = .ok (some ref) ∧
        ∃ val, s.container.valueAt ref = some val ∧
          s.container.findView keyView = .ok (some val)) ↔
      Proc.Along (MapCall.execIn fails)
        (fun c s => ¬c.Converts s.container ∧ c.op ≠ .clear) calls s₀ := by
  rw [HybridMessageMap.findViewRef_eq h₀.inv] at href
  refine Proc.along_iff (I := fun s => Roomy s ∧ s.attempts = s₀.attempts ∧
      s.container.locate ⟨keyView⟩ = some ref) ?_ ?_ ?_ ⟨h₀, rfl, Except.ok.inj href⟩
    (Proc.along_of_forall (fun _ _ => trivial) calls s₀)
  · rintro s ⟨h, hcount, hlocate⟩
    have hvalue := HybridMessageMap.valueAt_locate h.inv ⟨keyView⟩
    have hmem := isSome_lookup.mpr (HybridMessageMap.mem_keys_of_locate h.inv hlocate)
    obtain ⟨val, hval⟩ := Option.isSome_iff_exists.mp hmem
    rw [hlocate, hval] at hvalue
    refine ⟨hcount, ?_, val, hvalue, ?_⟩
    · rw [HybridMessageMap.findViewRef_eq h.inv, hlocate]
    · rw [HybridMessageMap.findView_eq h.inv, hval]
  · rintro c s ⟨⟨h, hcount, hlocate⟩, -, hc, hclear⟩
    obtain ⟨r, m', hexec, hthis, h'⟩ := execIn_of_roomy fails h hc
    obtain ⟨r₁, m₁, hexec₁, heff⟩ := c.exec_spec h.inv
    obtain ⟨rfl, rfl⟩ := Outcome.returned.inj (hexec.symm.trans hexec₁)
    rw [hthis]
    exact ⟨h', hcount, locate_of_effect heff hclear h.mode h'.mode hlocate⟩
  · rintro c s s' ⟨h, hcount, -⟩ - hlead ⟨hcount', hfound, -⟩
    refine ⟨not_converts_of_attempts h hlead (hcount'.trans hcount.symm), fun hclear => ?_⟩
    rw [MapCall.eq_clear hclear] at hlead
    have hcleared : MapCall.clear.execIn fails s =
        .returned .void { s with container := .ofConfig s.container.cfg } :=
      Proc.bind_of_returned (clear_of_roomy h) _
    obtain rfl := hlead.unique (.inl ⟨_, hcleared⟩)
    rw [HybridMessageMap.findViewRef_eq (HybridMessageMap.ofConfig_inv _)] at hfound
    have hmem := HybridMessageMap.mem_keys_of_locate (HybridMessageMap.ofConfig_inv _)
      (Except.ok.inj hfound)
    rw [HybridMessageMap.entries_ofConfig] at hmem
    cases hmem

/-- The pointer to an entry is good after another entry was inserted and its own was overwritten. -/
theorem pointer_valid_iff_written :
    ∃ rs s, Proc.execAll (MapCall.execIn fun _ => true)
        [.add [99] [100] (.lvalue .unknown), .set [97] [98] (.rvalue (.int64 2))]
        (⟨{ vectorStorage := [(⟨[97, 0x1F, 98]⟩, .int64 1)] }, smallCapacity, 1⟩ :
          Memory (ListMap ParameterKey ParameterValue)) = .ok (rs, s) ∧
      s.attempts = 1 ∧ s.container.findViewRef [97, 0x1F, 98] = .ok (some (.vector 0)) ∧
      ∃ val, s.container.valueAt (.vector 0) = some val ∧
        s.container.findView [97, 0x1F, 98] = .ok (some val) := by
  have hroomy : Roomy (⟨{ vectorStorage := [(⟨[97, 0x1F, 98]⟩, .int64 1)] }, smallCapacity, 1⟩ :
      Memory (ListMap ParameterKey ParameterValue)) :=
    ⟨.vector (by decide) nofun, rfl, le_rfl, by decide⟩
  have href : (⟨{ vectorStorage := [(⟨[97, 0x1F, 98]⟩, .int64 1)] }, smallCapacity, 1⟩ :
      Memory (ListMap ParameterKey ParameterValue)).container.findViewRef [97, 0x1F, 98] =
        .ok (some (.vector 0)) := rfl
  refine (pointer_valid_iff _ hroomy href _).mpr ?_ _ (List.prefix_refl _)
  exact .cons ⟨fun h => absurd h.2.1 (by decide), nofun⟩ (.inl ⟨_, rfl⟩)
    (.cons ⟨fun h => absurd h.2.1 (by decide), nofun⟩ (.inl ⟨_, rfl⟩) trivial)

end Memory

end MsgFrame
