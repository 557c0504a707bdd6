import MessageFrame.Container.Calls

/-!
# Storage mode and sizing hint are transparent

When `add` is used on absent keys only, as documented, a container holds no duplicates, and
everything a client can observe — size, results, the visited pairs — is determined by the
calls alone. The reference is an association list without repeated keys, in order of first
insertion (`MapOp.stepList`). A container in vector mode *is* that list, a container in map
mode holds it in some order (`Orders`), so two containers with different hints, which switch
modes at different times or never, both follow the same list.

The precondition is stated on the run of one container (`AddsAbsent`); it then holds of every
other one.
-/

namespace MsgFrame

open Msgpack AssocList

/-- The reference machine: a list of entries in order of first insertion. -/
def MapOp.stepList : MapOp → List (ParameterKey × ParameterValue) →
    Reply × List (ParameterKey × ParameterValue)
  | .insert key val, l => (.void, l ++ [(⟨key⟩, val)])
  | .upsert key val, l => (.void, AssocList.upsert l ⟨key⟩ val)
  | .replace key val, l => (.bool (decide (⟨key⟩ ∈ keys l)), replaceFirst ⟨key⟩ val l)
  | .lookup key, l => (.value (l.lookup ⟨key⟩), l)
  | .clear, _ => (.void, [])

/-- The reference machine, driven by the calls of the API. -/
def MapCall.stepList (c : MapCall) (l : List (ParameterKey × ParameterValue)) :
    Reply × List (ParameterKey × ParameterValue) := c.op.stepList l

/-- The distinct keys in order of first insertion, after one more operation. -/
def MapOp.stepKeys (ks : List ByteString) : MapOp → List ByteString
  | .insert key _ => if key ∈ ks then ks else ks ++ [key]
  | .upsert key _ => if key ∈ ks then ks else ks ++ [key]
  | .clear => []
  | _ => ks

/-- The distinct keys that calls have inserted since the last `clear`, in order of first
insertion. -/
def insertedKeys (calls : List MapCall) : List ByteString :=
  calls.foldl (fun ks c => c.op.stepKeys ks) []

namespace HybridMessageMap

variable {μ : Type} [UnorderedMap μ ParameterKey ParameterValue]

/-- The documented precondition of `add` and `add_flat`: the key is absent. -/
def AddsAbsent (c : MapCall) (m : HybridMessageMap μ) : Prop :=
  ∀ key val, c.op = .insert key val → m.findView key = .ok none

/-- The container holds the entries of the list: in that order in vector mode, in some order
in map mode. -/
structure Orders (m : HybridMessageMap μ) (l : List (ParameterKey × ParameterValue)) : Prop where
  inv : m.Inv
  nodup : (keys l).Nodup
  perm : m.entries.Perm l
  vector : m.isVectorMode = true → m.entries = l

theorem Orders.mem_keys {m : HybridMessageMap μ} {l : List (ParameterKey × ParameterValue)}
    (h : Orders m l) (k : ParameterKey) : k ∈ keys m.entries ↔ k ∈ keys l :=
  (keys_perm h.perm).mem_iff

theorem Orders.nodup_entries {m : HybridMessageMap μ}
    {l : List (ParameterKey × ParameterValue)} (h : Orders m l) : (keys m.entries).Nodup :=
  (keys_perm h.perm).nodup_iff.mpr h.nodup

theorem Orders.replaceFirst {m m' : HybridMessageMap μ} {k : ParameterKey}
    {val : ParameterValue} {l : List (ParameterKey × ParameterValue)} (h : Orders m l)
    (has : Assigned m k val m') : Orders m' (AssocList.replaceFirst k val l) where
  inv := has.inv
  nodup := by rw [keys_replaceFirst]; exact h.nodup
  perm := by rw [has.entries]; exact replaceFirst_perm h.perm h.nodup_entries k val
  vector hmode := by rw [has.entries, h.vector (has.mode ▸ hmode)]

theorem Orders.append {m m' : HybridMessageMap μ} {k : ParameterKey} {val : ParameterValue}
    {l : List (ParameterKey × ParameterValue)} (h : Orders m l) (hk : k ∉ keys l)
    (hins : Inserted m k val m') : Orders m' (l ++ [(k, val)]) where
  inv := hins.inv
  nodup := nodup_keys_append_singleton h.nodup hk val
  perm := by
    have hk' : k ∉ keys m.entries := fun hmem => hk ((h.mem_keys k).mp hmem)
    exact (hins.perm (nodup_keys_append_singleton h.nodup_entries hk' val)).trans
      (h.perm.append_right _)
  vector hmode := by
    rcases hins.entries with ⟨hvec, -, he⟩ | ⟨hmap, -⟩
    · rw [he, h.vector hvec]
    · rw [hmap] at hmode
      cases hmode

variable [LawfulUnorderedMap μ]

theorem Orders.ofConfig (config : FrameConfig) : Orders (ofConfig config : HybridMessageMap μ) []
    where
  inv := ofConfig_inv config
  nodup := List.nodup_nil
  perm := by rw [entries_ofConfig]
  vector _ := entries_ofConfig config

/-- **One operation**: the reply is that of the reference list, and the container follows it. -/
theorem Orders.effect {m m' : HybridMessageMap μ} {l : List (ParameterKey × ParameterValue)}
    {op : MapOp} {r : Reply} (h : Orders m l)
    (hadd : ∀ key val, op = .insert key val → ⟨key⟩ ∉ keys l) (he : Effect m op r m') :
    r = (op.stepList l).1 ∧ Orders m' (op.stepList l).2 := by
  cases he with
  | @insert key val _ hins => exact ⟨rfl, h.append (hadd key val rfl) hins⟩
  | @upsertOld key val _ hmem has =>
    refine ⟨rfl, ?_⟩
    simp only [MapOp.stepList, upsert_of_mem ((h.mem_keys _).mp hmem)]
    exact h.replaceFirst has
  | @upsertNew key val _ hnot hins =>
    have hk : ⟨key⟩ ∉ keys l := fun hmem => hnot ((h.mem_keys _).mpr hmem)
    refine ⟨rfl, ?_⟩
    simp only [MapOp.stepList, upsert_of_notMem hk]
    exact h.append hk hins
  | @replaceOld key val _ hmem has =>
    refine ⟨by simp only [MapOp.stepList, (h.mem_keys _).mp hmem, decide_true], ?_⟩
    exact h.replaceFirst has
  | @replaceMissing key val hnot =>
    have hk : ⟨key⟩ ∉ keys l := fun hmem => hnot ((h.mem_keys _).mpr hmem)
    refine ⟨by simp only [MapOp.stepList, hk, decide_false], ?_⟩
    simp only [MapOp.stepList, replaceFirst_of_notMem hk]
    exact h
  | @lookup key =>
    exact ⟨by simp only [MapOp.stepList, lookup_eq_of_perm h.perm h.nodup_entries], h⟩
  | clear => exact ⟨rfl, Orders.ofConfig _⟩

/-- The precondition, read off the reference list. -/
def FreshAdds : List (ParameterKey × ParameterValue) → List MapCall → Prop
  | _, [] => True
  | l, c :: cs => (∀ key val, c.op = .insert key val → ⟨key⟩ ∉ keys l) ∧
      FreshAdds (c.stepList l).2 cs

theorem Orders.freshAdds {calls : List MapCall} {m : HybridMessageMap μ}
    {l : List (ParameterKey × ParameterValue)} (h : Orders m l)
    (habs : Proc.Along MapCall.exec AddsAbsent calls m) : FreshAdds l calls := by
  induction calls generalizing m l with
  | nil => trivial
  | cons c cs ih =>
    have hadd : ∀ key val, c.op = .insert key val → (⟨key⟩ : ParameterKey) ∉ keys l := by
      intro key val hop hmem
      have hfind := habs.1 key val hop
      rw [findView_eq h.inv, Except.ok.injEq, lookup_eq_none] at hfind
      exact hfind ((h.mem_keys _).mpr hmem)
    obtain ⟨r, m', hexec, heff⟩ := c.exec_spec h.inv
    exact ⟨hadd, ih (h.effect hadd heff).2 (habs.2 m' (.inl ⟨r, hexec⟩))⟩

/-- **A sequence of calls** follows the reference list. -/
theorem Orders.execAll {m : HybridMessageMap μ} {l : List (ParameterKey × ParameterValue)}
    (h : Orders m l) {calls : List MapCall} (hfresh : FreshAdds l calls) :
    ∃ m', Proc.execAll MapCall.exec calls m =
        .ok ((Proc.runMachine MapCall.stepList calls l).1.map some, m') ∧
      Orders m' (Proc.runMachine MapCall.stepList calls l).2 := by
  refine Proc.execAll_simulates (R := Orders) (G := FreshAdds) (fun c cs t hG => hG.2)
    (fun c cs s t hG hR => ?_) calls m l hfresh h
  obtain ⟨r, m', hexec, heff⟩ := c.exec_spec hR.inv
  obtain ⟨hr, hord⟩ := hR.effect hG.1 heff
  exact ⟨m', hr ▸ hexec, hord⟩

/-! ### The keys of the reference list -/

omit [UnorderedMap μ ParameterKey ParameterValue] [LawfulUnorderedMap μ] in
theorem mem_keys_iff_fullKey {l : List (ParameterKey × ParameterValue)} {key : ByteString} :
    (⟨key⟩ : ParameterKey) ∈ keys l ↔ key ∈ (keys l).map ParameterKey.fullKey := by
  rw [List.mem_map]
  exact ⟨fun h => ⟨_, h, rfl⟩, fun ⟨⟨k⟩, h, hk⟩ => hk ▸ h⟩

omit [UnorderedMap μ ParameterKey ParameterValue] [LawfulUnorderedMap μ] in
/-- One operation moves the keys of the reference list as `stepKeys` says. -/
theorem keys_stepList (op : MapOp) {l : List (ParameterKey × ParameterValue)}
    (hadd : ∀ key val, op = .insert key val → (⟨key⟩ : ParameterKey) ∉ keys l) :
    (keys (op.stepList l).2).map ParameterKey.fullKey =
      op.stepKeys ((keys l).map ParameterKey.fullKey) := by
  cases op with
  | insert key val =>
    have hk := hadd key val rfl
    rw [mem_keys_iff_fullKey] at hk
    simp only [MapOp.stepList, MapOp.stepKeys, if_neg hk, keys_append, List.map_append]
    rfl
  | upsert key val =>
    by_cases hk : (⟨key⟩ : ParameterKey) ∈ keys l
    · have hk' := hk
      rw [mem_keys_iff_fullKey] at hk'
      simp only [MapOp.stepList, MapOp.stepKeys, if_pos hk', upsert_of_mem hk, keys_replaceFirst]
    · have hk' := hk
      rw [mem_keys_iff_fullKey] at hk'
      simp only [MapOp.stepList, MapOp.stepKeys, if_neg hk', upsert_of_notMem hk, keys_append,
        List.map_append]
      rfl
  | replace key val => simp only [MapOp.stepList, MapOp.stepKeys, keys_replaceFirst]
  | lookup key => rfl
  | clear => rfl

omit [UnorderedMap μ ParameterKey ParameterValue] [LawfulUnorderedMap μ] in
theorem keys_runMachine {calls : List MapCall} {l : List (ParameterKey × ParameterValue)}
    (hfresh : FreshAdds l calls) :
    (keys (Proc.runMachine MapCall.stepList calls l).2).map ParameterKey.fullKey =
      calls.foldl (fun ks c => c.op.stepKeys ks) ((keys l).map ParameterKey.fullKey) := by
  induction calls generalizing l with
  | nil => rfl
  | cons c cs ih =>
    simp only [Proc.runMachine, List.foldl_cons]
    rw [ih hfresh.2, ← keys_stepList c.op hfresh.1]
    rfl

/-! ### Two containers -/

/-- What a container shows after the calls. Its size is the number of distinct keys; exactly these
keys are visited, each once, in the order of first insertion in vector mode; and the value of a
visited pair is what the lookups return for its key, which find nothing else. -/
structure Shows (calls : List MapCall) (m : HybridMessageMap μ) : Prop where
  size : m.size = .ok (insertedKeys calls).length
  visited : (keys m.visits).Perm (insertedKeys calls)
  once : (keys m.visits).Nodup
  order : m.isVectorMode = true → keys m.visits = insertedKeys calls
  value : ∀ key val, (key, val) ∈ m.visits → m.findView key = .ok (some val)
  find : ∀ device param, ∃ found, m.find device param = .ok found ∧
    ∀ val, found = some val ↔ (composeKey device param, val) ∈ m.visits
  findFlat : ∀ flatKey : FlatKey, ∃ found, m.findFlat flatKey = .ok found ∧
    ∀ val, found = some val ↔ (flatKey.view, val) ∈ m.visits

theorem Orders.shows {calls : List MapCall} {m : HybridMessageMap μ}
    (hfresh : FreshAdds [] calls)
    (h : Orders m (Proc.runMachine MapCall.stepList calls []).2) : Shows calls m := by
  have hkeys : (keys (Proc.runMachine MapCall.stepList calls []).2).map ParameterKey.fullKey =
      insertedKeys calls := keys_runMachine hfresh
  -- in map mode the entries are those of the reference list in some order
  have hvisited : (keys m.visits).Perm (insertedKeys calls) := by
    rw [keys_visits, ← hkeys]
    exact (keys_perm h.perm).map _
  have hsize : m.entries.length = (insertedKeys calls).length := by
    rw [← hvisited.length_eq, keys_visits, List.length_map, length_keys]
  have hlookup : ∀ key val, m.entries.lookup ⟨key⟩ = some val ↔ (key, val) ∈ m.visits :=
    fun key val => (lookup_eq_some h.nodup_entries).trans mem_visits.symm
  refine ⟨?_, hvisited, nodup_keys_visits.mpr h.nodup_entries, fun hmode => ?_,
    fun key val hmem => ?_, fun device param => ⟨_, find_eq h.inv device param, hlookup _⟩,
    fun flatKey => ⟨_, findFlat_eq h.inv flatKey, hlookup _⟩⟩
  · rw [size_eq h.inv, hsize]
  · rw [keys_visits, h.vector hmode, hkeys]
  · rw [findView_eq h.inv, (hlookup key val).mpr hmem]

/-- A strict update keeps the size and the visited keys, and a failed one keeps everything. -/
theorem update_keeps_keys {m : HybridMessageMap μ} (h : m.Inv) {c : MapCall} {key : ByteString}
    {val : ParameterValue} (hop : c.op = .replace key val) :
    ∃ b m', c.exec m = .returned (.bool b) m' ∧ m'.size = m.size ∧
      keys m'.visits = keys m.visits ∧ (b = false → m' = m) := by
  obtain ⟨r, m', hexec, heff⟩ := c.exec_spec h
  rw [hop] at heff
  cases heff with
  | replaceOld hmem has =>
    refine ⟨true, m', hexec, ?_, ?_, fun hb => by cases hb⟩
    · rw [size_eq has.inv, size_eq h, has.entries, length_replaceFirst]
    · rw [keys_visits, keys_visits, has.entries, keys_replaceFirst]
  | replaceMissing hnot => exact ⟨false, m, hexec, rfl, rfl, fun _ => rfl⟩

/-- **Storage mode and sizing hint are transparent.** Let calls respect the precondition of
`add`. After every beginning `done` of them, containers with any two hints have given the same
replies, have the same size and visit the same pairs. Each visits the distinct keys inserted since
the last `clear`, all of them and each exactly once, with the values that `find` and `find_flat`
return, and in vector mode in the order of first insertion. No further `update` changes the keys of
either. -/
theorem mode_transparency (c₁ c₂ : FrameConfig) (calls : List MapCall)
    (habs : Proc.Along MapCall.exec AddsAbsent calls (ofConfig c₁ : HybridMessageMap μ))
    (done : List MapCall) (hdone : done <+: calls) :
    ∃ (rs : List (Option Reply)) (m₁ m₂ : HybridMessageMap μ),
      Proc.execAll MapCall.exec done (ofConfig c₁) = .ok (rs, m₁) ∧
      Proc.execAll MapCall.exec done (ofConfig c₂) = .ok (rs, m₂) ∧
      m₁.size = m₂.size ∧ m₁.visits.Perm m₂.visits ∧ Shows done m₁ ∧ Shows done m₂ ∧
      ∀ (c : MapCall) (key : ByteString) (val : ParameterValue), c.op = .replace key val →
        ∀ m, m = m₁ ∨ m = m₂ → ∃ b m', c.exec m = .returned (.bool b) m' ∧ m'.size = m.size ∧
          keys m'.visits = keys m.visits ∧ (b = false → m' = m) := by
  have hfresh : FreshAdds [] done := (Orders.ofConfig c₁).freshAdds (habs.of_isPrefix hdone)
  obtain ⟨m₁, hexec₁, hord₁⟩ := (Orders.ofConfig (μ := μ) c₁).execAll hfresh
  obtain ⟨m₂, hexec₂, hord₂⟩ := (Orders.ofConfig (μ := μ) c₂).execAll hfresh
  have hshow₁ := hord₁.shows hfresh
  have hshow₂ := hord₂.shows hfresh
  refine ⟨_, m₁, m₂, hexec₁, hexec₂, hshow₁.size.trans hshow₂.size.symm, ?_, hshow₁, hshow₂, ?_⟩
  · rw [visits_eq, visits_eq]
    exact (hord₁.perm.trans hord₂.perm.symm).map _
  · rintro c key val hop m (rfl | rfl)
    · exact update_keeps_keys hord₁.inv hop
    · exact update_keeps_keys hord₂.inv hop

/-- A container in vector mode and one that starts in map mode, after an `add`, a `set` and
the update of the first key. -/
theorem mode_transparency_hinted :
    ∃ (rs : List (Option Reply)) (m₁ m₂ : HybridMessageMap (ListMap ParameterKey ParameterValue)),
      Proc.execAll MapCall.exec [.add [97] [98] (.lvalue .unknown), .set [97] [] (.rvalue .unknown),
        .update [97] [98] (.lvalue (.bool true))] (ofConfig {}) = .ok (rs, m₁) ∧
      Proc.execAll MapCall.exec [.add [97] [98] (.lvalue .unknown), .set [97] [] (.rvalue .unknown),
        .update [97] [98] (.lvalue (.bool true))] (ofConfig { initialReserve := 512 }) =
          .ok (rs, m₂) ∧
      m₁.size = m₂.size ∧ m₁.visits.Perm m₂.visits := by
  have habs : Proc.Along MapCall.exec AddsAbsent
      [.add [97] [98] (.lvalue .unknown), .set [97] [] (.rvalue .unknown),
        .update [97] [98] (.lvalue (.bool true))]
      (ofConfig {} : HybridMessageMap (ListMap ParameterKey ParameterValue)) := by
    refine ⟨fun key val hop => ?_, fun _ _ => ⟨fun key val hop => ?_, fun _ _ =>
      ⟨fun key val hop => ?_, fun _ _ => trivial⟩⟩⟩
    · rw [findView_eq (ofConfig_inv _), entries_ofConfig, List.lookup_nil]
    · cases hop
    · cases hop
  obtain ⟨rs, m₁, m₂, hexec₁, hexec₂, hsize, hperm, -⟩ :=
    mode_transparency {} { initialReserve := 512 } _ habs _ (List.prefix_refl _)
  exact ⟨rs, m₁, m₂, hexec₁, hexec₂, hsize, hperm⟩

end HybridMessageMap

end MsgFrame
