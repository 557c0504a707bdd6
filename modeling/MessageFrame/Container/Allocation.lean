import MessageFrame.Container.Invariant
import MessageFrame.ForMathlib.Projection
import MessageFrame.Model.Allocation

/-!
# What an allocation decides

The functions that allocate, described by their allocations. `reserveVector_eq`, `ensureMap_eq`,
`reserveMap_eq` and `convertEntry_eq` say what a single one decides. A conversion makes
`conversionAllocations` of them in a row: it returns what it returns with ample memory if all
succeed (`convertToMap_returned`), and otherwise leaves the container `Torn`, somewhere in the
middle of its loop or before it (`convertToMap_threw`).

The loop is followed through the states `midway`, in which the values of the first entries have
been moved out of the vector into the map.
-/

namespace MsgFrame

open Msgpack AssocList

namespace Memory

variable {μ : Type} [UnorderedMap μ ParameterKey ParameterValue]

/-! ### Single allocations -/

variable {fails : ℕ → Bool}

omit [UnorderedMap μ ParameterKey ParameterValue] in
theorem allocate_of_fails {s : Memory μ} (h : fails s.attempts = true) :
    allocate fails s = .threw { s with attempts := s.attempts + 1 } := by
  unfold allocate
  rw [Proc.get_bind, Proc.modify_bind, if_pos h]
  rfl

omit [UnorderedMap μ ParameterKey ParameterValue] in
theorem allocate_of_not_fails {s : Memory μ} (h : fails s.attempts = false) :
    allocate fails s = .returned () { s with attempts := s.attempts + 1 } := by
  unfold allocate
  rw [Proc.get_bind, Proc.modify_bind, if_neg (by rw [h]; exact Bool.false_ne_true)]
  rfl

omit [UnorderedMap μ ParameterKey ParameterValue] in
/-- **One reservation** in the vector allocates only if there is no room. -/
theorem reserveVector_eq (fails : ℕ → Bool) (n : ℕ) (s : Memory μ) : reserveVector fails n s =
    if n ≤ s.capacity then .returned () s
    else if fails s.attempts then .threw { s with attempts := s.attempts + 1 }
    else .returned () { s with capacity := n, attempts := s.attempts + 1 } := by
  unfold reserveVector
  rw [Proc.get_bind]
  by_cases hroom : n ≤ s.capacity
  · rw [if_neg (Nat.not_lt.mpr hroom), if_pos hroom]
    rfl
  · rw [if_pos (Nat.lt_of_not_le hroom), if_neg hroom]
    cases hf : fails s.attempts with
    | true => rw [if_pos rfl, Proc.bind_of_threw (allocate_of_fails hf)]
    | false =>
      rw [if_neg Bool.false_ne_true, Proc.bind_of_returned (allocate_of_not_fails hf)]
      rfl

theorem ensureMap_eq (fails : ℕ → Bool) (s : Memory μ) : ensureMap fails s =
    match s.container.mapStorage with
    | some _ => .returned () s
    | none =>
      if fails s.attempts then .threw { s with attempts := s.attempts + 1 }
      else .returned ()
        { s with
          container := { s.container with mapStorage := some UnorderedMap.empty }
          attempts := s.attempts + 1 } := by
  unfold ensureMap makeMap
  rw [Proc.get_bind]
  cases s.container.mapStorage with
  | some map => rfl
  | none =>
    cases hf : fails s.attempts with
    | true => exact Proc.bind_of_threw (allocate_of_fails hf) _
    | false => exact Proc.bind_of_returned (allocate_of_not_fails hf) _

theorem reserveMap_eq (fails : ℕ → Bool) (n : ℕ) (s : Memory μ) {map : μ}
    (h : s.container.mapStorage = some map) :
    reserveMap fails n s =
      if fails s.attempts then .threw { s with attempts := s.attempts + 1 }
      else .returned ()
        { s with
          container := { s.container with mapStorage := some (UnorderedMap.reserve map n) }
          attempts := s.attempts + 1 } := by
  obtain ⟨⟨mode, l, cfg, storage⟩, capacity, attempts⟩ := s
  obtain rfl : storage = some map := h
  unfold reserveMap
  rw [Proc.get_bind, HybridMessageMap.derefMap, Proc.eval_ok_bind]
  cases hf : fails attempts with
  | true => exact Proc.bind_of_threw (allocate_of_fails hf) _
  | false => exact Proc.bind_of_returned (allocate_of_not_fails hf) _

/-! ### The loop of a conversion -/

/-- The vector after the values of its first `k` entries were moved out. -/
def movedOut (l : List (ParameterKey × ParameterValue)) (k : ℕ) :
    List (ParameterKey × ParameterValue) :=
  l.mapIdx fun i pair => if i < k then (pair.1, .unknown) else pair

@[simp] theorem length_movedOut (l : List (ParameterKey × ParameterValue)) (k : ℕ) :
    (movedOut l k).length = l.length := List.length_mapIdx

@[simp] theorem movedOut_zero (l : List (ParameterKey × ParameterValue)) : movedOut l 0 = l := by
  refine List.ext_getElem? fun i => ?_
  simp [movedOut]

theorem getElem?_movedOut (l : List (ParameterKey × ParameterValue)) (k : ℕ) :
    (movedOut l k)[k]? = l[k]? := by
  simp [movedOut]

theorem movedOut_succ (l : List (ParameterKey × ParameterValue)) (k : ℕ) :
    (movedOut l k).modify k (fun pair => (pair.1, .unknown)) = movedOut l (k + 1) := by
  refine List.ext_getElem? fun i => ?_
  rw [List.getElem?_modify, movedOut, movedOut, List.getElem?_mapIdx, List.getElem?_mapIdx]
  cases l[i]? with
  | none => rfl
  | some pair =>
    rcases Nat.lt_trichotomy i k with hlt | rfl | hgt
    · have hne : k ≠ i := by omega
      have hlt' : i < k + 1 := by omega
      simp [hne, hlt, hlt']
    · simp
    · have hne : k ≠ i := by omega
      have hge : ¬i < k := by omega
      have hge' : ¬i < k + 1 := by omega
      simp [hne, hge, hge']

/-- The conversion of `l` after `k` rounds of its loop. -/
def midway (l : List (ParameterKey × ParameterValue)) (cfg : FrameConfig) (map : μ)
    (capacity attempts k : ℕ) : Memory μ where
  container := ⟨false, movedOut l k, cfg, some (UnorderedMap.emplaceAll map (l.take k))⟩
  capacity := capacity
  attempts := attempts + k

/-- **One round of the loop**, with what the allocation of the key copy decides. -/
theorem convertEntry_eq (fails : ℕ → Bool) (l : List (ParameterKey × ParameterValue))
    (cfg : FrameConfig) (map : μ) (capacity attempts : ℕ) {k : ℕ} (hk : k < l.length) :
    convertEntry fails k (midway l cfg map capacity attempts k) =
      if fails (attempts + k) then
        .threw { midway l cfg map capacity attempts k with attempts := attempts + k + 1 }
      else .returned () (midway l cfg map capacity attempts (k + 1)) := by
  have hat : Checked.at (midway l cfg map capacity attempts k).container.vectorStorage k =
      .ok l[k] := by
    rw [Checked.at, midway, getElem?_movedOut, List.getElem?_eq_getElem hk]
  have htake : UnorderedMap.emplaceAll map (l.take (k + 1)) =
      UnorderedMap.emplace (UnorderedMap.emplaceAll map (l.take k)) l[k].1 l[k].2 := by
    rw [List.take_succ_eq_append_getElem hk, UnorderedMap.emplaceAll, List.foldl_append]
    rfl
  unfold convertEntry
  rw [Proc.get_bind, hat, Proc.eval_ok_bind]
  cases hf : fails (attempts + k) with
  | true =>
    rw [if_pos rfl]
    exact Proc.bind_of_threw (allocate_of_fails hf) _
  | false =>
    rw [if_neg Bool.false_ne_true, Proc.bind_of_returned (allocate_of_not_fails hf)]
    simp only [midway, htake, ← movedOut_succ]
    rfl

/-! ### A whole conversion -/

section

variable {l : List (ParameterKey × ParameterValue)} {cfg : FrameConfig} {spare : Option μ}
  {map : μ} {mode : Bool} {capacity attempts attempts' : ℕ}

/-- The map cannot be created. -/
theorem convertToMap_of_map {s : Memory μ}
    (hensure : ensureMap fails ⟨⟨false, l, cfg, spare⟩, capacity, attempts⟩ = .threw s) :
    convertToMap fails ⟨⟨mode, l, cfg, spare⟩, capacity, attempts⟩ = .threw s :=
  Proc.bind_of_threw hensure _

variable (hensure : ensureMap fails ⟨⟨false, l, cfg, spare⟩, capacity, attempts⟩ =
  .returned () ⟨⟨false, l, cfg, some map⟩, capacity, attempts'⟩)

include hensure

/-- The buckets cannot be allocated. -/
private theorem convertToMap_of_buckets (hf : fails attempts' = true) :
    convertToMap fails ⟨⟨mode, l, cfg, spare⟩, capacity, attempts⟩ =
      .threw ⟨⟨false, l, cfg, some map⟩, capacity, attempts' + 1⟩ := by
  have hreserve := reserveMap_eq fails smallCapacity
    ⟨⟨false, l, cfg, some map⟩, capacity, attempts'⟩ rfl
  rw [if_pos hf] at hreserve
  exact (Proc.bind_of_returned hensure _).trans (Proc.bind_of_threw hreserve _)

/-- The loop is entered. -/
private theorem convertToMap_of_not_fails (hf : fails attempts' = false) :
    convertToMap fails ⟨⟨mode, l, cfg, spare⟩, capacity, attempts⟩ =
      (do
        Proc.forEach (convertEntry fails) (List.range l.length)
        onContainer (Proc.modify fun m => { m with vectorStorage := [] })
        Proc.modify fun s => { s with capacity := 0 } : Proc (Memory μ) Unit)
      (midway l cfg (UnorderedMap.reserve map smallCapacity) capacity (attempts' + 1) 0) := by
  have hreserve := reserveMap_eq fails smallCapacity
    ⟨⟨false, l, cfg, some map⟩, capacity, attempts'⟩ rfl
  rw [if_neg (by rw [hf]; exact Bool.false_ne_true)] at hreserve
  refine (Proc.bind_of_returned hensure _).trans ((Proc.bind_of_returned hreserve _).trans ?_)
  rw [Proc.get_bind, midway, movedOut_zero]
  rfl

/-- One of the keys cannot be copied. -/
private theorem convertToMap_of_copy (hf : fails attempts' = false)
    (hcopy : ∃ i < l.length, fails (attempts' + 1 + i) = true) :
    ∃ k < l.length, convertToMap fails ⟨⟨mode, l, cfg, spare⟩, capacity, attempts⟩ =
      .threw { midway l cfg (UnorderedMap.reserve map smallCapacity) capacity (attempts' + 1) k
        with attempts := attempts' + 1 + k + 1 } := by
  have hround {i : ℕ} (hi : i < l.length) := convertEntry_eq fails l cfg
    (UnorderedMap.reserve map smallCapacity) capacity (attempts' + 1) hi
  obtain ⟨k, hk, hloop⟩ := Proc.forEach_range_of_exists
    (fun i hi hp => (hround hi).trans (if_neg hp)) (fun i hi hp => (hround hi).trans (if_pos hp))
    hcopy
  refine ⟨k, hk, ?_⟩
  rw [convertToMap_of_not_fails hensure hf]
  exact Proc.bind_of_threw hloop _

/-- Every allocation succeeds. -/
private theorem convertToMap_of_all (h : ∀ i < 1 + l.length, fails (attempts' + i) = false) :
    convertToMap fails ⟨⟨mode, l, cfg, spare⟩, capacity, attempts⟩ =
      .returned () ⟨⟨false, [], cfg, some (UnorderedMap.emplaceAll
        (UnorderedMap.reserve map smallCapacity) l)⟩, 0, attempts' + 1 + l.length⟩ := by
  have hf : fails attempts' = false := h 0 (by omega)
  have hcopy : ∀ i < l.length, fails (attempts' + 1 + i) = false := by
    intro i hi
    have hi' := h (1 + i) (by omega)
    rwa [← Nat.add_assoc] at hi'
  have hround : ∀ i < l.length, convertEntry fails i
      (midway l cfg (UnorderedMap.reserve map smallCapacity) capacity (attempts' + 1) i) =
        .returned () (midway l cfg (UnorderedMap.reserve map smallCapacity) capacity
          (attempts' + 1) (i + 1)) := by
    intro i hi
    rw [convertEntry_eq fails l cfg _ capacity (attempts' + 1) hi, hcopy i hi,
      if_neg Bool.false_ne_true]
  have hloop := Proc.forEach_range_of_returned hround
  rw [convertToMap_of_not_fails hensure hf, Proc.bind_of_returned hloop, midway, List.take_length]
  rfl

end

/-- The allocations of a conversion: the map, unless one is left over, its buckets and the copies
of the keys. -/
def conversionAllocations (m : HybridMessageMap μ) : ℕ :=
  (if m.mapStorage.isNone then 1 else 0) + 1 + m.vectorStorage.length

/-- What an exception leaves of a container that was to be converted: the flag says map mode; there
is no map, or it holds what was copied into an empty one before, and the vector holds the rest and
what is left of the values that were moved out of it. -/
inductive Torn (m : HybridMessageMap μ) : HybridMessageMap μ → Prop
  | noMap : Torn m ⟨false, m.vectorStorage, m.cfg, none⟩
  | half {map : μ} {k : ℕ} (hempty : UnorderedMap.toList map = [])
      (hk : k < m.vectorStorage.length) :
    Torn m ⟨false, movedOut m.vectorStorage k, m.cfg,
      some (UnorderedMap.emplaceAll map (m.vectorStorage.take k))⟩

/-- **A conversion whose allocations succeed** does what it does with ample memory. -/
theorem convertToMap_returned {s : Memory μ}
    (h : ∀ i < conversionAllocations s.container, fails (s.attempts + i) = false) :
    ∃ s', convertToMap fails s = .returned () s' ∧
      HybridMessageMap.convertToMap s.container = .returned () s'.container := by
  obtain ⟨⟨mode, l, cfg, spare⟩, capacity, attempts⟩ := s
  rw [HybridMessageMap.convertToMap_eq]
  have hensure := ensureMap_eq fails ⟨⟨false, l, cfg, spare⟩, capacity, attempts⟩
  cases spare with
  | none =>
    replace h : ∀ i < 2 + l.length, fails (attempts + i) = false := h
    have hmap : fails attempts = false := h 0 (by omega)
    simp only [hmap, Bool.false_eq_true, if_false] at hensure
    refine ⟨_, convertToMap_of_all hensure fun i hi => ?_, rfl⟩
    have hi' := h (1 + i) (by omega)
    rwa [← Nat.add_assoc] at hi'
  | some map => exact ⟨_, convertToMap_of_all hensure h, rfl⟩

variable [LawfulUnorderedMap μ]

omit [UnorderedMap μ ParameterKey ParameterValue] [LawfulUnorderedMap μ] in
/-- A failure that is not the first allocation is a later one. -/
private theorem exists_later_failure {a n k : ℕ} (hf : fails a = false) (hn : n ≤ k + 1)
    (h : ∃ i < n, fails (a + i) = true) : ∃ i < k, fails (a + 1 + i) = true := by
  obtain ⟨i, hi, hfi⟩ := h
  cases i with
  | zero => exact absurd hfi (by rw [Nat.add_zero, hf]; exact Bool.false_ne_true)
  | succ i => exact ⟨i, by omega, by rwa [Nat.add_right_comm]⟩

/-- The part of a conversion after the map is there. -/
private theorem convertToMap_threw_of_ensureMap {l : List (ParameterKey × ParameterValue)}
    {cfg : FrameConfig} {spare : Option μ} {map : μ} {mode : Bool}
    {capacity attempts attempts' : ℕ}
    (hensure : ensureMap fails ⟨⟨false, l, cfg, spare⟩, capacity, attempts⟩ =
      .returned () ⟨⟨false, l, cfg, some map⟩, capacity, attempts'⟩)
    (hempty : UnorderedMap.toList map = []) (hne : l ≠ [])
    (h : ∃ i < 1 + l.length, fails (attempts' + i) = true) :
    ∃ s', convertToMap fails ⟨⟨mode, l, cfg, spare⟩, capacity, attempts⟩ = .threw s' ∧
      Torn ⟨mode, l, cfg, spare⟩ s'.container := by
  cases hf : fails attempts' with
  | true =>
    have htorn : Torn (⟨mode, l, cfg, spare⟩ : HybridMessageMap μ)
        ⟨false, movedOut l 0, cfg, some (UnorderedMap.emplaceAll map (l.take 0))⟩ :=
      .half hempty (List.length_pos_iff.mpr hne)
    rw [movedOut_zero] at htorn
    exact ⟨_, convertToMap_of_buckets hensure hf, htorn⟩
  | false =>
    have hcopy : ∃ i < l.length, fails (attempts' + 1 + i) = true :=
      exists_later_failure hf (by omega) h
    obtain ⟨k, hk, hthrew⟩ := convertToMap_of_copy hensure hf hcopy
    exact ⟨_, hthrew, .half (UnorderedMap.toList_reserve_eq_nil hempty _) hk⟩

/-- **A conversion with an allocation that fails** throws and leaves the container torn. -/
theorem convertToMap_threw {s : Memory μ}
    (hspare : ∀ map, s.container.mapStorage = some map → UnorderedMap.toList map = [])
    (hne : s.container.vectorStorage ≠ [])
    (h : ∃ i < conversionAllocations s.container, fails (s.attempts + i) = true) :
    ∃ s', convertToMap fails s = .threw s' ∧ Torn s.container s'.container := by
  obtain ⟨⟨mode, l, cfg, spare⟩, capacity, attempts⟩ := s
  have hensure := ensureMap_eq fails ⟨⟨false, l, cfg, spare⟩, capacity, attempts⟩
  cases spare with
  | none =>
    cases hf : fails attempts with
    | true =>
      simp only [hf, if_true] at hensure
      exact ⟨_, convertToMap_of_map hensure, .noMap⟩
    | false =>
      simp only [hf, Bool.false_eq_true, if_false] at hensure
      replace h : ∃ i < 2 + l.length, fails (attempts + i) = true := h
      exact convertToMap_threw_of_ensureMap hensure LawfulUnorderedMap.toList_empty hne
        (exists_later_failure hf (by omega) h)
  | some map =>
    exact convertToMap_threw_of_ensureMap hensure (hspare map rfl) hne h

end Memory

end MsgFrame
