import MessageFrame.Container.Allocation
import MessageFrame.Container.Calls

/-!
# Conversions that run out of memory

A conversion switches the container to map mode before it allocates anything, and it moves the
values out of the vector one by one, each after a key copy that can throw. So an exception never
finds the container as it was (`failed_conversion_not_intact`): before the map is created the flag
promises a map that is not there, and later the map holds fewer entries than the vector did
(`Torn`). The caller of `add`, `add_flat`, `set` or `set_flat`, which all start the conversion with
nothing in between, gets the exception and keeps the container.
-/

namespace MsgFrame

open Msgpack AssocList

variable {μ : Type} [UnorderedMap μ ParameterKey ParameterValue]

/-- The call inserts an entry under a key that the container does not hold. -/
def MapCall.InsertsNew (c : MapCall) (m : HybridMessageMap μ) : Prop :=
  ∃ key val, (c.op = .insert key val ∨ c.op = .upsert key val) ∧ ⟨key⟩ ∉ keys m.entries

namespace Memory

/-- What a caller who catches the exception relies on: the container `m'` is valid, finds every
key of `m` with its value, and is as large. -/
structure Intact (m m' : HybridMessageMap μ) : Prop where
  inv : m'.Inv
  found (key : ByteString) (val : ParameterValue) : m.findView key = .ok (some val) →
    m'.findView key = .ok (some val)
  size : m'.size = m.size

/-! ### Torn containers -/

variable {m m' : HybridMessageMap μ}

/-- A torn container that had entries violates the invariant, whichever allocation failed. -/
theorem Torn.not_inv (h : Torn m m') (hne : m.vectorStorage ≠ []) : ¬m'.Inv := by
  intro hinv
  cases h with
  | noMap => exact absurd rfl (HybridMessageMap.inv_iff.mp hinv |>.1 rfl).1
  | half _ hk =>
    have hvec : movedOut m.vectorStorage _ = [] := (HybridMessageMap.inv_iff.mp hinv |>.1 rfl).2
    have hlen := congrArg List.length hvec
    rw [length_movedOut, List.length_nil] at hlen
    exact hne (List.length_eq_zero_iff.mp hlen)

variable [LawfulUnorderedMap μ]

/-- A torn container has lost its map, or some of its entries. -/
theorem Torn.size_ne (h : Torn m m') (hmode : m.isVectorMode = true) : m'.size ≠ m.size := by
  have hsize : m.size = .ok m.vectorStorage.length := by
    rw [HybridMessageMap.size, if_pos hmode]
  rw [hsize]
  cases h with
  | noMap => exact fun h => by cases h
  | @half map k hempty hk =>
    have hperm := UnorderedMap.toList_emplaceAll map (l := []) (by rw [hempty])
      (m.vectorStorage.take k)
    have hle : (UnorderedMap.toList (UnorderedMap.emplaceAll map
        (m.vectorStorage.take k))).length ≤ k := by
      rw [hperm.length_eq]
      refine (length_insertAll_le _ _).trans ?_
      rw [List.length_nil, Nat.zero_add]
      exact List.length_take_le k m.vectorStorage
    rw [← LawfulUnorderedMap.size_eq] at hle
    intro heq
    have hlen : UnorderedMap.size (UnorderedMap.emplaceAll map (m.vectorStorage.take k)) =
        m.vectorStorage.length := Except.ok.inj heq
    omega

/-! ### Calls that convert -/

variable {fails : ℕ → Bool} {s s' : Memory μ}

omit [LawfulUnorderedMap μ] in
private theorem add_of_convertToMap (hmode : s.container.isVectorMode = true)
    (hfull : smallCapacity ≤ s.container.vectorStorage.length)
    (hthrew : convertToMap fails s = .threw s') (device param : ByteString) (val : Arg) :
    add fails device param val s = .threw s' := by
  unfold add
  rw [Proc.get_bind, if_pos hmode, if_pos hfull, Proc.bind_of_threw hthrew]

omit [LawfulUnorderedMap μ] in
private theorem addFlat_of_convertToMap (hmode : s.container.isVectorMode = true)
    (hfull : smallCapacity ≤ s.container.vectorStorage.length)
    (hthrew : convertToMap fails s = .threw s') (flatKey : FlatKey) (val : Arg) :
    addFlat fails flatKey val s = .threw s' := by
  unfold addFlat
  rw [Proc.get_bind, if_pos hmode, if_pos hfull, Proc.bind_of_threw hthrew]

/-- **Every call that inserts a new key into a full vector** ends where the conversion does. -/
theorem execIn_of_convertToMap (h : s.container.Inv)
    (hmode : s.container.isVectorMode = true)
    (hfull : smallCapacity ≤ s.container.vectorStorage.length) {c : MapCall}
    (hnew : c.InsertsNew s.container) (hthrew : convertToMap fails s = .threw s') :
    c.execIn fails s = .threw s' := by
  obtain ⟨key, val, hop, hnot⟩ := hnew
  have hlocate := (HybridMessageMap.locate_eq_none h).mpr hnot
  cases c with
  | add device param val =>
    exact Proc.bind_of_threw (add_of_convertToMap hmode hfull hthrew device param val) _
  | addFlat flatKey val =>
    exact Proc.bind_of_threw (addFlat_of_convertToMap hmode hfull hthrew flatKey val) _
  | set device param val =>
    obtain rfl : composeKey device param = key := by
      rcases hop with hop | hop <;> cases hop
      rfl
    have hset : set fails device param val s = .threw s' := by
      unfold set
      rw [Proc.get_bind, HybridMessageMap.findForWrite_eq h, hlocate, Proc.eval_ok_bind]
      exact add_of_convertToMap hmode hfull hthrew device param val
    exact Proc.bind_of_threw hset _
  | setFlat flatKey val =>
    obtain rfl : flatKey.view = key := by
      rcases hop with hop | hop <;> cases hop
      rfl
    have hset : setFlat fails flatKey val s = .threw s' := by
      unfold setFlat HybridMessageMap.findFlatRef
      rw [Proc.get_bind, HybridMessageMap.findViewRef_eq h, hlocate, Proc.eval_ok_bind]
      exact addFlat_of_convertToMap hmode hfull hthrew flatKey val
    exact Proc.bind_of_threw hset _
  | _ => rcases hop with hop | hop <;> cases hop

/-- **Conversions are never all-or-nothing.** Whichever allocation of the conversion fails, when a
new key is inserted into a full vector: the exception leaves a container that violates the
invariant and has lost entries. -/
theorem failed_conversion_not_intact (h : s.container.Inv)
    (hmode : s.container.isVectorMode = true)
    (hfull : s.container.vectorStorage.length = smallCapacity) {c : MapCall}
    (hnew : c.InsertsNew s.container)
    (hfail : ∃ i < conversionAllocations s.container, fails (s.attempts + i) = true) :
    ∃ s', c.execIn fails s = .threw s' ∧ ¬s'.container.Inv ∧
      s'.container.size ≠ .ok smallCapacity ∧ ¬Intact s.container s'.container := by
  have hne : s.container.vectorStorage ≠ [] := by
    intro hnil
    rw [hnil] at hfull
    cases hfull
  have hsize : s.container.size = .ok smallCapacity := by
    rw [HybridMessageMap.size, if_pos hmode, hfull]
  obtain ⟨s', hthrew, htorn⟩ :=
    convertToMap_threw ((HybridMessageMap.inv_iff.mp h).2 hmode).2 hne hfail
  have hexec := execIn_of_convertToMap h hmode hfull.ge hnew hthrew
  have hsize_ne := htorn.size_ne hmode
  exact ⟨s', hexec, htorn.not_inv hne, hsize ▸ hsize_ne, fun hintact => hsize_ne hintact.size⟩

/-! ### A full container whose map cannot be created -/

/-- The `i`-th of the insertions that fill a container. -/
def fillCall (i : ℕ) : MapCall := .add [UInt8.ofNat i] [] (.lvalue (.bool true))

/-- A container after `n` insertions with different keys. -/
def filled (n : ℕ) : Memory (ListMap ParameterKey ParameterValue) where
  container :=
    { vectorStorage :=
        (List.range n).map fun i => (.ofParts [UInt8.ofNat i] [], .bool true) }
  capacity := smallCapacity
  attempts := 1

private theorem length_filled (n : ℕ) : (filled n).container.vectorStorage.length = n := by
  simp [filled]

/-- The insertions need no allocation: the vector has been reserved. -/
private theorem execAll_fillCall (fails : ℕ → Bool) {n : ℕ} (hn : n ≤ smallCapacity) :
    Proc.execAll (MapCall.execIn fails) ((List.range n).map fillCall) (filled 0) =
      .ok (List.replicate n (some .void), filled n) := by
  induction n with
  | zero => rfl
  | succ n ih =>
    have hlen := length_filled n
    have hmode : (filled n).container.isVectorMode = true := rfl
    have hroom : ¬smallCapacity ≤ (filled n).container.vectorStorage.length := by omega
    have hgrow : growVector fails (filled n) = .returned () (filled n) := by
      unfold growVector
      rw [Proc.get_bind]
      exact congrFun (if_neg hroom) _
    have hcall : (fillCall n).execIn fails (filled n) = .returned .void (filled (n + 1)) := by
      have hadd : add fails [UInt8.ofNat n] [] (.lvalue (.bool true)) (filled n) =
          .returned () (filled (n + 1)) := by
        unfold add emplaceBack
        rw [Proc.get_bind, if_pos hmode, if_neg hroom, Proc.bind_of_returned hgrow]
        simp only [filled, List.range_succ, List.map_append]
        rfl
      exact Proc.bind_of_returned hadd _
    rw [List.range_succ, List.map_append, List.replicate_succ']
    exact Proc.execAll_append_singleton (ih (Nat.le_of_succ_le hn)) hcall

private theorem inv_filled : (filled smallCapacity).container.Inv :=
  .vector (length_filled smallCapacity).le fun _ h => by cases h

/-- The key of one more insertion is new. -/
private theorem insertsNew_filled :
    (fillCall smallCapacity).InsertsNew (filled smallCapacity).container := by
  refine ⟨composeKey [UInt8.ofNat smallCapacity] [], .bool true, .inl rfl, fun hmem => ?_⟩
  obtain ⟨pair, hpair, hkey⟩ := List.mem_map.mp hmem
  obtain ⟨i, hi, rfl⟩ := List.mem_map.mp hpair
  have hbyte : UInt8.ofNat i = UInt8.ofNat smallCapacity := by
    rw [ParameterKey.ofParts_eq] at hkey
    simpa [composeKey] using hkey
  have hnat := congrArg UInt8.toNat hbyte
  have hlt : i < smallCapacity := List.mem_range.mp hi
  rw [UInt8.toNat_ofNat', UInt8.toNat_ofNat'] at hnat
  unfold smallCapacity at hlt hnat
  omega

/-- The third key copy of a conversion fails. -/
theorem failed_conversion_not_intact_third_key : ∃ s',
    (fillCall smallCapacity).execIn (fun i => i == 5) (filled smallCapacity) = .threw s' ∧
      ¬s'.container.Inv ∧ s'.container.size ≠ .ok smallCapacity ∧
      ¬Intact (filled smallCapacity).container s'.container :=
  failed_conversion_not_intact inv_filled rfl (length_filled smallCapacity) insertsNew_filled
    ⟨4, by simp [conversionAllocations, filled, smallCapacity], rfl⟩

/-- A container is constructed and filled, and the next insertion cannot create the map: the
container is in map mode without a map, and `size` dereferences null. -/
theorem failed_conversion_loses_container :
    ∃ s₀ s₁ s₂ : Memory (ListMap ParameterKey ParameterValue),
      construct (fun i => i == 1) {} 0 = .returned () s₀ ∧
      (∃ rs, Proc.execAll (MapCall.execIn fun i => i == 1)
        ((List.range smallCapacity).map fillCall) s₀ = .ok (rs, s₁)) ∧
      s₁.container.size = .ok smallCapacity ∧
      (fillCall smallCapacity).execIn (fun i => i == 1) s₁ = .threw s₂ ∧
      s₂.container.size = .error .nullDereference ∧ ¬Intact s₁.container s₂.container := by
  have hensure := ensureMap_eq (fun i => i == 1)
    ⟨{ (filled smallCapacity).container with isVectorMode := false }, smallCapacity, 1⟩
  have hconvert : convertToMap (fun i => i == 1) (filled smallCapacity) = .threw _ :=
    convertToMap_of_map hensure
  have hexec := execIn_of_convertToMap inv_filled rfl (length_filled smallCapacity).ge
    insertsNew_filled hconvert
  refine ⟨filled 0, filled smallCapacity, _, rfl, ⟨_, execAll_fillCall _ (Nat.le_refl _)⟩,
    congrArg Except.ok (length_filled smallCapacity), hexec, rfl, fun hintact => ?_⟩
  cases hintact.size

end Memory

end MsgFrame
