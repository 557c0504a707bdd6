import MessageFrame.Container.Conversion
import MessageFrame.Container.FlatForms
import MessageFrame.Container.Recovery

/-!
# How a call ends under memory pressure

From a valid container, and whichever allocations fail, a call of the parameter API can end in
three ways (`Ending`). It does what it does with ample memory; or it throws and has done nothing,
because the vector could not grow; or it throws in the middle of a conversion and leaves the
container torn. The last of these is the only one that does harm, and `MapCall.Converts` tells from
the container alone which calls start a conversion.

`clear` is described on its own (`clear_cases`), from any state: it leaves the container that the
hint asks for, or an empty one in vector mode.
-/

namespace MsgFrame

open Msgpack AssocList

variable {μ : Type} [UnorderedMap μ ParameterKey ParameterValue]

/-- The call inserts into the container. The upserts insert only the keys that they do not find. -/
def MapCall.Appends (c : MapCall) (m : HybridMessageMap μ) : Prop :=
  ∃ key val, c.op = .insert key val ∨ (c.op = .upsert key val ∧ ⟨key⟩ ∉ keys m.entries)

/-- The call converts the container: it inserts into a full vector. -/
def MapCall.Converts (c : MapCall) (m : HybridMessageMap μ) : Prop :=
  m.isVectorMode = true ∧ smallCapacity ≤ m.vectorStorage.length ∧ c.Appends m

/-- The variants of a call perform the same operation. -/
theorem MapCall.normal_op (c : MapCall) : c.normal.op = c.op := by
  cases c with
  | add device param val | set device param val | update device param val =>
    simp only [MapCall.normal, MapCall.op, FlatKey.view_compose]
    rfl
  | find device param => simp only [MapCall.normal, MapCall.op, FlatKey.view_compose]
  | _ => rfl

/-- The five calls in flat form. -/
theorem MapCall.normal_cases (c : MapCall) :
    (∃ flatKey val, c.normal = .addFlat flatKey val) ∨
      (∃ flatKey val, c.normal = .setFlat flatKey val) ∨
      (∃ flatKey val, c.normal = .updateFlat flatKey val) ∨
      (∃ flatKey, c.normal = .findFlat flatKey) ∨ c.normal = .clear := by
  cases c with
  | add device param val => exact .inl ⟨_, _, rfl⟩
  | addFlat flatKey val => exact .inl ⟨_, _, rfl⟩
  | set device param val => exact .inr (.inl ⟨_, _, rfl⟩)
  | setFlat flatKey val => exact .inr (.inl ⟨_, _, rfl⟩)
  | update device param val => exact .inr (.inr (.inl ⟨_, _, rfl⟩))
  | updateFlat flatKey val => exact .inr (.inr (.inl ⟨_, _, rfl⟩))
  | find device param => exact .inr (.inr (.inr (.inl ⟨_, rfl⟩)))
  | findFlat flatKey => exact .inr (.inr (.inr (.inl ⟨_, rfl⟩)))
  | clear => exact .inr (.inr (.inr (.inr rfl)))

namespace Memory

/-- The allocations of a conversion all succeed. -/
def ConversionSucceeds (fails : ℕ → Bool) (s : Memory μ) : Prop :=
  ∀ i < conversionAllocations s.container, fails (s.attempts + i) = false

/-- How a call ends that does not clear, where `base` is how it ends with ample memory. -/
inductive Ending (fails : ℕ → Bool) (s : Memory μ) (converts appends : Prop) {α : Type}
    (base : Outcome (HybridMessageMap μ) α) : Outcome (Memory μ) α → Prop
  /-- It returns what it returns with ample memory. -/
  | done {a : α} {s' : Memory μ} (hconv : converts → ConversionSucceeds fails s)
      (hbase : base = .returned a s'.container) :
    Ending fails s converts appends base (.returned a s')
  /-- It throws and has done nothing. -/
  | refused {s' : Memory μ} (happend : appends) (hconv : ¬converts)
      (hmode : s.container.isVectorMode = true)
      (hroom : s.capacity ≤ s.container.vectorStorage.length)
      (hsame : s'.container = s.container) : Ending fails s converts appends base (.threw s')
  /-- It throws in the middle of a conversion. -/
  | torn {s' : Memory μ} (hconv : converts) (hfails : ¬ConversionSucceeds fails s)
      (htorn : Torn s.container s'.container) : Ending fails s converts appends base (.threw s')

variable {fails : ℕ → Bool} {s : Memory μ} {converts appends : Prop}

/-! ### Statements -/

/-- A value is returned after the last statement. -/
theorem Ending.block {x : Proc (Memory μ) Unit} {y : Proc (HybridMessageMap μ) Unit}
    (h : Ending fails s converts appends (y s.container) (x s)) {α : Type} (a : α) :
    Ending fails s converts appends ((y >>= fun _ => pure a) s.container)
      ((x >>= fun _ => pure a) s) := by
  rw [Proc.bind_apply, Proc.bind_apply]
  generalize x s = out at h
  cases h with
  | done hconv hbase =>
    rw [hbase]
    exact .done hconv rfl
  | refused happend hconv hmode hroom hsame => exact .refused happend hconv hmode hroom hsame
  | torn hconv hfails htorn => exact .torn hconv hfails htorn

/-- Statements that allocate nothing. -/
theorem Ending.onContainer (hconv : ¬converts) {α : Type} {x : Proc (HybridMessageMap μ) α} {a : α}
    {m : HybridMessageMap μ} (hx : x s.container = .returned a m) :
    Ending fails s converts appends (x s.container) (onContainer x s) := by
  have hon : Memory.onContainer x s = .returned a { s with container := m } :=
    Proc.onField_of_returned hx
  rw [hon]
  exact .done (fun h => absurd h hconv) hx

omit [UnorderedMap μ ParameterKey ParameterValue] in
/-- **One append**: the vector grows first if it has no room. -/
theorem emplaceBack_eq (fails : ℕ → Bool) (key : ParameterKey) (val : ParameterValue)
    (s : Memory μ) : emplaceBack fails key val s =
      if s.container.vectorStorage.length < s.capacity then
        .returned () { s with container :=
          { s.container with vectorStorage := s.container.vectorStorage ++ [(key, val)] } }
      else if fails s.attempts then .threw { s with attempts := s.attempts + 1 }
      else .returned ()
        { container :=
            { s.container with vectorStorage := s.container.vectorStorage ++ [(key, val)] }
          capacity := max (s.container.vectorStorage.length + 1)
            (2 * s.container.vectorStorage.length)
          attempts := s.attempts + 1 } := by
  have hgrow : growVector fails s =
      if s.container.vectorStorage.length < s.capacity then .returned () s
      else if fails s.attempts then .threw { s with attempts := s.attempts + 1 }
      else .returned ()
        { s with
          capacity := max (s.container.vectorStorage.length + 1)
            (2 * s.container.vectorStorage.length)
          attempts := s.attempts + 1 } := by
    unfold growVector
    rw [Proc.get_bind]
    by_cases hroom : s.container.vectorStorage.length < s.capacity
    · rw [if_pos hroom]
      exact congrFun (if_neg (Nat.not_le.mpr hroom)) s
    · have hfull : s.capacity ≤ s.container.vectorStorage.length := Nat.le_of_not_lt hroom
      have hmore : ¬max (s.container.vectorStorage.length + 1)
          (2 * s.container.vectorStorage.length) ≤ s.capacity := by omega
      rw [if_neg hroom]
      refine (congrFun (if_pos hfull) s).trans ?_
      rw [reserveVector_eq, if_neg hmore]
  unfold emplaceBack
  rw [Proc.bind_apply, hgrow]
  split_ifs <;> rfl

private theorem emplaceBack_ending (happend : appends) (hconv : ¬converts)
    (hmode : s.container.isVectorMode = true)
    (key : ParameterKey) (val : ParameterValue) :
    Ending fails s converts appends (HybridMessageMap.emplaceBack key val s.container)
      (emplaceBack fails key val s) := by
  rw [emplaceBack_eq]
  split_ifs with hroom hfails
  · exact .done (fun h => absurd h hconv) rfl
  · exact .refused happend hconv hmode (Nat.le_of_not_lt hroom) rfl
  · exact .done (fun h => absurd h hconv) rfl

/-! ### Insertion -/

variable [LawfulUnorderedMap μ]

/-- A full vector is converted before the new entry is emplaced into the map. -/
private theorem convert_ending (h : s.container.Inv) (hconv : converts)
    (hmode : s.container.isVectorMode = true)
    (hfull : smallCapacity ≤ s.container.vectorStorage.length) (key : ParameterKey)
    (val : ParameterValue) :
    Ending fails s converts appends
      ((HybridMessageMap.convertToMap >>= fun _ =>
        HybridMessageMap.onMap (UnorderedMap.emplace · key val)) s.container)
      ((convertToMap fails >>= fun _ =>
        onContainer (HybridMessageMap.onMap (UnorderedMap.emplace · key val))) s) := by
  by_cases hall : ConversionSucceeds fails s
  · obtain ⟨⟨mode, l, cfg, spare⟩, capacity, attempts⟩ := s
    obtain ⟨⟨container, capacity', attempts'⟩, hthis, hbase⟩ := convertToMap_returned hall
    rw [HybridMessageMap.convertToMap_eq] at hbase
    obtain rfl := (Outcome.returned.inj hbase).2
    rw [Proc.bind_of_returned hthis,
      Proc.bind_of_returned (HybridMessageMap.convertToMap_eq mode l cfg spare)]
    exact .done (fun _ => hall) rfl
  · have hne : s.container.vectorStorage ≠ [] := by
      intro hnil
      rw [hnil] at hfull
      exact absurd hfull (by decide)
    have hfail : ∃ i < conversionAllocations s.container, fails (s.attempts + i) = true := by
      simpa [ConversionSucceeds] using hall
    obtain ⟨s', hthrew, htorn⟩ :=
      convertToMap_threw ((HybridMessageMap.inv_iff.mp h).2 hmode).2 hne hfail
    rw [Proc.bind_of_threw hthrew]
    exact .torn hconv hall htorn

private theorem addFlat_ending (h : s.container.Inv) (flatKey : FlatKey) (val : Arg)
    (happend : appends) (hconv : converts ↔ s.container.isVectorMode = true ∧
      smallCapacity ≤ s.container.vectorStorage.length) :
    Ending fails s converts appends (HybridMessageMap.addFlat flatKey val s.container)
      (addFlat fails flatKey val s) := by
  unfold HybridMessageMap.addFlat addFlat
  rw [Proc.get_bind, Proc.get_bind]
  by_cases hmode : s.container.isVectorMode = true
  · rw [if_pos hmode, if_pos hmode]
    by_cases hfull : smallCapacity ≤ s.container.vectorStorage.length
    · rw [if_pos hfull, if_pos hfull]
      exact convert_ending h (hconv.mpr ⟨hmode, hfull⟩) hmode hfull _ _
    · rw [if_neg hfull, if_neg hfull]
      exact emplaceBack_ending happend (fun hc => hfull (hconv.mp hc).2) hmode _ _
  · rw [if_neg hmode, if_neg hmode]
    obtain ⟨hsome, -⟩ := (HybridMessageMap.inv_iff.mp h).1 (Bool.not_eq_true _ ▸ hmode)
    obtain ⟨map, hmap⟩ := Option.ne_none_iff_exists'.mp hsome
    have hemplace : HybridMessageMap.onMap (UnorderedMap.emplace · ⟨flatKey.view⟩ val.value)
        s.container = .returned () { s.container with
          mapStorage := some (UnorderedMap.emplace map ⟨flatKey.view⟩ val.value) } := by
      unfold HybridMessageMap.onMap HybridMessageMap.derefMap
      rw [Proc.get_bind, hmap]
      rfl
    exact .onContainer (fun hc => hmode (hconv.mp hc).1) hemplace

private theorem setFlat_ending (h : s.container.Inv) (flatKey : FlatKey) (val : Arg)
    (happend : ⟨flatKey.view⟩ ∉ keys s.container.entries → appends)
    (hconv : converts ↔ s.container.isVectorMode = true ∧
      smallCapacity ≤ s.container.vectorStorage.length ∧
      ⟨flatKey.view⟩ ∉ keys s.container.entries) :
    Ending fails s converts appends (HybridMessageMap.setFlat flatKey val s.container)
      (setFlat fails flatKey val s) := by
  unfold HybridMessageMap.setFlat setFlat HybridMessageMap.findFlatRef
  rw [Proc.get_bind, Proc.get_bind, HybridMessageMap.findViewRef_eq h]
  cases hlocate : s.container.locate ⟨flatKey.view⟩ with
  | none =>
    have hnot := (HybridMessageMap.locate_eq_none h).mp hlocate
    exact addFlat_ending h flatKey val (happend hnot)
      ⟨fun hc => ⟨(hconv.mp hc).1, (hconv.mp hc).2.1⟩, fun hc => hconv.mpr ⟨hc.1, hc.2, hnot⟩⟩
  | some ref =>
    obtain ⟨m', hassign, -⟩ := HybridMessageMap.assignAt_spec h hlocate val.value
    exact .onContainer (fun hc => (hconv.mp hc).2.2 (HybridMessageMap.mem_keys_of_locate h hlocate))
      hassign

variable (fails) in
/-- **How a call ends** that does not clear. -/
theorem execIn_ending (h : s.container.Inv) (c : MapCall) (hclear : c.op ≠ .clear) :
    Ending fails s (c.Converts s.container) (c.Appends s.container) (c.exec s.container)
      (c.execIn fails s) := by
  -- it is enough to look at the flat forms
  have happends : c.Appends s.container = c.normal.Appends s.container := by
    unfold MapCall.Appends
    rw [c.normal_op]
  rw [← c.normal_op] at hclear
  rw [← c.normal_exec, ← c.normal_execIn, MapCall.Converts, happends]
  obtain ⟨flatKey, val, hnormal⟩ | ⟨flatKey, val, hnormal⟩ | ⟨flatKey, val, hnormal⟩ |
    ⟨flatKey, hnormal⟩ | hnormal := c.normal_cases
  · rw [hnormal]
    have happend : (MapCall.addFlat flatKey val).Appends s.container := ⟨_, _, .inl rfl⟩
    exact (addFlat_ending h flatKey val happend (by simp [happend])).block _
  · rw [hnormal]
    have happend : (MapCall.setFlat flatKey val).Appends s.container ↔
        ⟨flatKey.view⟩ ∉ keys s.container.entries := by
      simp [MapCall.Appends, MapCall.op]
    exact (setFlat_ending h flatKey val happend.mpr (by rw [happend])).block _
  · rw [hnormal]
    obtain ⟨r, m', hexec, -⟩ := (MapCall.updateFlat flatKey val).exec_spec h
    exact .onContainer (by simp [MapCall.Appends, MapCall.op]) hexec
  · rw [hnormal]
    obtain ⟨r, m', hexec, -⟩ := (MapCall.findFlat flatKey).exec_spec h
    exact .onContainer (by simp [MapCall.Appends, MapCall.op]) hexec
  · rw [hnormal] at hclear
    exact absurd rfl hclear

/-! ### Clearing -/

omit [LawfulUnorderedMap μ] in
/-- **How `clear` ends**, from any state: in the container that the hint asks for, or, if that
cannot be had, in an empty one in vector mode. It throws if there is no memory for that one. -/
theorem clear_cases (fails : ℕ → Bool) (s : Memory μ) :
    (∃ s', clear fails s = .returned () s' ∧ (s'.container = .ofConfig s.container.cfg ∨
        s'.container = { cfg := s.container.cfg }) ∧
        (s'.container.isVectorMode = true → smallCapacity ≤ s'.capacity)) ∨
      ∃ s', clear fails s = .threw s' ∧ s'.container = { cfg := s.container.cfg } := by
  rw [clear_eq]
  rcases primeStorage_cases fails s with ⟨s', hprime, hcontainer, hroom, -⟩ |
    ⟨i, -, -, -, m, hprime, hvector, hcfg⟩
  · rw [Proc.tryCatch_of_returned hprime]
    exact .inl ⟨s', rfl, .inl hcontainer, hroom⟩
  · rw [Proc.tryCatch_of_threw hprime, fallBack_eq hvector, reserveVector_eq]
    split_ifs with hroom hagain
    · exact .inl ⟨_, rfl, .inr (by simp [reset, hcfg]), fun _ => hroom⟩
    · exact .inr ⟨_, rfl, by simp [reset, hcfg]⟩
    · exact .inl ⟨_, rfl, .inr (by simp [reset, hcfg]), fun _ => le_rfl⟩

end Memory

end MsgFrame
