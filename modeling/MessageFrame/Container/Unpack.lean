import MessageFrame.Container.Invariant

/-!
# What a container holds after unpacking an object

`unpack` empties the container, chooses the storage by the announced number of pairs, and then
stores pair after pair until the first one whose key or value does not convert. `received` is
the list of pairs it gets to store and `convertible` says whether it gets through; both depend
on the object alone. `unpack_spec` describes the container in these terms, for every object
and from every state, whether the call returns or throws.

The two ways of storing differ on repeated keys: up to `smallCapacity` pairs the entries are
exactly the pairs received, beyond it they are the first pairs of each key.
-/

namespace MsgFrame

open Msgpack AssocList

namespace HybridMessageMap

variable (M : Codec)

/-- The pairs of a map object. -/
def pairsOf : Object → List (Object × Object)
  | .map pairs => pairs
  | _ => []

/-- The entry that a pair stands for, unless its key or its value does not convert. -/
def wireEntry (pair : Object × Object) : Option (ParameterKey × ParameterValue) := do
  let keyView ← M.asStringView pair.1
  let val ← ParameterValue.unpack M pair.2
  some (⟨keyView⟩, val)

/-- The entries that are read off an object before the first pair that does not convert. -/
def received (obj : Object) : List (ParameterKey × ParameterValue) :=
  Proc.converted (wireEntry M) (pairsOf obj)

/-- All pairs of the object convert. -/
def convertible (obj : Object) : Bool := Proc.converts (wireEntry M) (pairsOf obj)

variable {μ : Type} [UnorderedMap μ ParameterKey ParameterValue]

/-- The container `m'` is what unpacking `obj` makes of `m`. -/
structure Unpacked (obj : Object) (m m' : HybridMessageMap μ) : Prop where
  inv : m'.Inv
  cfg : m'.cfg = m.cfg
  /-- A small map is stored pair by pair, in vector mode. -/
  small : (∃ pairs, obj = .map pairs) → (pairsOf obj).length ≤ smallCapacity →
    m'.isVectorMode = true ∧ m'.entries = received M obj
  /-- A large map is stored in map mode, the first pair of a key winning. -/
  large : smallCapacity < (pairsOf obj).length →
    m'.isVectorMode = false ∧ m'.entries.Perm (firsts (received M obj))
  /-- Any other object leaves an empty container. -/
  other : (∀ pairs, obj ≠ .map pairs) → m' = ofConfig m.cfg

variable {M}

theorem wireEntry_eq_some {pair : Object × Object} {e : ParameterKey × ParameterValue}
    (h : wireEntry M pair = some e) : M.asStringView pair.1 = some e.1.fullKey ∧
      ParameterValue.unpack M pair.2 = some e.2 := by
  simp only [wireEntry, Option.bind_eq_bind, Option.bind_eq_some_iff] at h
  obtain ⟨keyView, hkey, val, hval, h⟩ := h
  cases h
  exact ⟨hkey, hval⟩

/-- A pair that does not convert is not stored. -/
theorem unpackEntry_of_none {pair : Object × Object} (h : wireEntry M pair = none)
    (m : HybridMessageMap μ) : unpackEntry M pair m = .threw m := by
  unfold unpackEntry
  cases hkey : M.asStringView pair.1 with
  | none => rw [Proc.orThrow_none_bind]
  | some keyView =>
    cases hval : ParameterValue.unpack M pair.2 with
    | none => rw [Proc.orThrow_some_bind, Proc.orThrow_none_bind]
    | some val => simp [wireEntry, hkey, hval] at h

/-- A pair that converts is stored, in the storage that the flag selects. -/
theorem unpackEntry_of_some {pair : Object × Object} {e : ParameterKey × ParameterValue}
    (h : wireEntry M pair = some e) (m : HybridMessageMap μ) :
    unpackEntry M pair m = (if m.isVectorMode then emplaceBack e.1 e.2
      else onMap (UnorderedMap.emplace · e.1 e.2)) m := by
  obtain ⟨hkey, hval⟩ := wireEntry_eq_some h
  unfold unpackEntry
  rw [hkey, hval, Proc.orThrow_some_bind, Proc.orThrow_some_bind, Proc.get_bind]

/-- The loop over the pairs in vector mode. -/
private theorem forEach_unpackEntry_vector (cfg : FrameConfig) (spare : Option μ)
    (pairs : List (Object × Object)) :
    Proc.forEach (unpackEntry M) pairs ⟨true, [], cfg, spare⟩ =
      if convertible M (.map pairs) then .returned () ⟨true, received M (.map pairs), cfg, spare⟩
      else .threw ⟨true, received M (.map pairs), cfg, spare⟩ := by
  have hloop := Proc.forEach_converts (f := wireEntry M)
    (fun l => (⟨true, l, cfg, spare⟩ : HybridMessageMap μ)) (fun l e => l ++ [e])
    (fun pair e l he => by rw [unpackEntry_of_some he]; rfl)
    (fun pair l he => unpackEntry_of_none he _) pairs []
  have hfold : ∀ es : List (ParameterKey × ParameterValue),
      es.foldl (fun l e => l ++ [e]) [] = es := by simp [← List.flatMap_def]
  rwa [hfold] at hloop

/-- The loop over the pairs in map mode. -/
private theorem forEach_unpackEntry_map (cfg : FrameConfig) (map : μ)
    (pairs : List (Object × Object)) :
    Proc.forEach (unpackEntry M) pairs ⟨false, [], cfg, some map⟩ =
      if convertible M (.map pairs) then
        .returned () ⟨false, [], cfg, some (UnorderedMap.emplaceAll map (received M (.map pairs)))⟩
      else
        .threw ⟨false, [], cfg, some (UnorderedMap.emplaceAll map (received M (.map pairs)))⟩ :=
  Proc.forEach_converts (f := wireEntry M)
    (fun map => (⟨false, [], cfg, some map⟩ : HybridMessageMap μ))
    (fun map e => UnorderedMap.emplace map e.1 e.2)
    (fun pair e map he => by rw [unpackEntry_of_some he]; rfl)
    (fun pair map he => unpackEntry_of_none he _) pairs map

variable [LawfulUnorderedMap μ]

/-- A cleared container has an empty vector, and its map, if any, is empty as well. -/
private theorem ofConfig_eq (config : FrameConfig) : ∃ (mode : Bool) (spare : Option μ),
    ofConfig config = ⟨mode, [], config, spare⟩ ∧
      ∀ map, spare = some map → UnorderedMap.toList map = [] := by
  unfold ofConfig
  split_ifs
  · refine ⟨_, _, rfl, ?_⟩
    rintro map hmap
    obtain rfl := Option.some.inj hmap
    exact UnorderedMap.toList_reserve_eq_nil LawfulUnorderedMap.toList_empty _
  · exact ⟨_, _, rfl, fun _ h => by cases h⟩

/-- **What `unpack` does**: on any object, from any state, it stores what it receives, and it
throws unless every pair converts. The container satisfies the invariant in both cases. -/
theorem unpack_spec (M : Codec) (obj : Object) (m : HybridMessageMap μ) :
    ∃ m', unpack M obj m = (if convertible M obj then .returned () m' else .threw m') ∧
      Unpacked M obj m m' := by
  unfold unpack
  rw [Proc.bind_of_returned (clear_eq m)]
  by_cases hobj : ∃ pairs, obj = .map pairs
  · obtain ⟨pairs, rfl⟩ := hobj
    obtain ⟨mode, spare, hcfg, hspare⟩ := ofConfig_eq (μ := μ) m.cfg
    by_cases hbig : smallCapacity < pairs.length
    · -- the map that receives the pairs: the primed one or a fresh one, empty in both cases
      obtain ⟨map₀, hmap₀, hempty⟩ : ∃ map₀ : μ, (if spare.isNone then
          (⟨mode, [], m.cfg, some UnorderedMap.empty⟩ : HybridMessageMap μ)
          else ⟨mode, [], m.cfg, spare⟩) = ⟨mode, [], m.cfg, some map₀⟩ ∧
          UnorderedMap.toList map₀ = [] := by
        cases spare with
        | none => exact ⟨_, rfl, LawfulUnorderedMap.toList_empty⟩
        | some map => exact ⟨map, rfl, hspare map rfl⟩
      refine ⟨⟨false, [], m.cfg, some (UnorderedMap.emplaceAll
        (UnorderedMap.reserve map₀ pairs.length) (received M (.map pairs)))⟩, ?_, ?_⟩
      · simp only [if_pos hbig, hcfg, Proc.modify_bind]
        rw [hmap₀, Proc.bind_of_returned (onMap_apply _ mode [] m.cfg map₀), Proc.modify_bind]
        exact forEach_unpackEntry_map m.cfg _ pairs
      · refine ⟨.map, rfl, fun _ hsmall => absurd hsmall (Nat.not_le.mpr hbig), fun _ =>
          ⟨rfl, ?_⟩, fun hne => absurd rfl (hne pairs)⟩
        refine UnorderedMap.toList_emplaceAll _ ?_ _
        rw [UnorderedMap.toList_reserve_eq_nil hempty]
    · -- the pairs fit the vector; a primed map stays behind, empty
      refine ⟨⟨true, received M (.map pairs), m.cfg, spare⟩, ?_, ?_⟩
      · simp only [if_neg hbig, hcfg, Proc.modify_bind]
        exact forEach_unpackEntry_vector m.cfg spare pairs
      · have hlen : (received M (.map pairs)).length ≤ smallCapacity :=
          Nat.le_trans (Proc.length_converted_le _ _) (Nat.le_of_not_lt hbig)
        exact ⟨.vector hlen hspare, rfl, fun _ _ => ⟨rfl, rfl⟩, fun hlt => absurd hlt hbig,
          fun hne => absurd rfl (hne pairs)⟩
  · -- no map: the container stays cleared
    have hpairs : pairsOf obj = [] := by
      cases obj with
      | map pairs => exact absurd ⟨pairs, rfl⟩ hobj
      | _ => rfl
    refine ⟨ofConfig m.cfg, ?_, ofConfig_inv _, cfg_ofConfig _, fun h => absurd h hobj, ?_,
      fun _ => rfl⟩
    · rw [convertible, hpairs]
      cases obj with
      | map pairs => exact absurd ⟨pairs, rfl⟩ hobj
      | _ => rfl
    · rw [hpairs]
      exact fun h => absurd h (Nat.not_lt_zero _)

/-! ### What a client sees of it -/

omit [LawfulUnorderedMap μ] in
theorem received_of_ne_map {obj : Object} (hobj : ∀ pairs, obj ≠ .map pairs) :
    pairsOf obj = [] ∧ received M obj = [] := by
  cases obj with
  | map pairs => exact absurd rfl (hobj pairs)
  | _ => exact ⟨rfl, rfl⟩

/-- The three shapes of an unpacked container in one statement: the entries received, or, when
the object announces too many pairs, their first occurrences. -/
theorem Unpacked.entries_cases {obj : Object} {m m' : HybridMessageMap μ}
    (h : Unpacked M obj m m') :
    ((pairsOf obj).length ≤ smallCapacity ∧ m'.entries = received M obj) ∨
      (smallCapacity < (pairsOf obj).length ∧ m'.entries.Perm (firsts (received M obj))) := by
  by_cases hobj : ∃ pairs, obj = .map pairs
  · rcases Nat.lt_or_ge smallCapacity (pairsOf obj).length with hbig | hsmall
    · exact .inr ⟨hbig, (h.large hbig).2⟩
    · exact .inl ⟨hsmall, (h.small hobj hsmall).2⟩
  · have hne : ∀ pairs, obj ≠ .map pairs := fun pairs he => hobj ⟨pairs, he⟩
    obtain ⟨hpairs, hrec⟩ := received_of_ne_map (M := M) hne
    rw [h.other hne, entries_ofConfig, hpairs, hrec]
    exact .inl ⟨Nat.zero_le _, rfl⟩

/-- No more entries are stored than the object has pairs. -/
theorem Unpacked.length_le {obj : Object} {m m' : HybridMessageMap μ} (h : Unpacked M obj m m') :
    m'.entries.length ≤ (pairsOf obj).length := by
  have hreceived : (received M obj).length ≤ (pairsOf obj).length :=
    Proc.length_converted_le _ _
  rcases h.entries_cases with ⟨-, he⟩ | ⟨-, hperm⟩
  · rwa [he]
  · have hfirsts := length_insertAll_le [] (received M obj)
    rw [List.length_nil, Nat.zero_add] at hfirsts
    rw [hperm.length_eq]
    exact Nat.le_trans hfirsts hreceived

/-- A key is found with the first value received for it. -/
theorem Unpacked.lookup {obj : Object} {m m' : HybridMessageMap μ} (h : Unpacked M obj m m')
    (k : ParameterKey) : m'.entries.lookup k = (received M obj).lookup k := by
  rcases h.entries_cases with ⟨-, he⟩ | ⟨hbig, hperm⟩
  · rw [he]
  · rw [lookup_eq_of_perm hperm (nodup_keys_of_map_mode h.inv (h.large hbig).1), lookup_firsts]

/-- Unpacking forgets what was there before: two containers that unpack the same object hold
the same entries. -/
theorem Unpacked.perm {obj : Object} {m₁ m₂ m₁' m₂' : HybridMessageMap μ}
    (h₁ : Unpacked M obj m₁ m₁') (h₂ : Unpacked M obj m₂ m₂') : m₁'.entries.Perm m₂'.entries := by
  rcases h₁.entries_cases, h₂.entries_cases with ⟨⟨hsmall, he₁⟩ | ⟨hbig, hperm₁⟩,
    ⟨hsmall', he₂⟩ | ⟨hbig', hperm₂⟩⟩
  · rw [he₁, he₂]
  · exact absurd hbig' (Nat.not_lt.mpr hsmall)
  · exact absurd hbig (Nat.not_lt.mpr hsmall')
  · exact hperm₁.trans hperm₂.symm

/-- Repeated keys survive unpacking exactly when the map is small enough for the vector. -/
theorem Unpacked.nodup_iff {obj : Object} {m m' : HybridMessageMap μ} (h : Unpacked M obj m m') :
    (keys m'.entries).Nodup ↔
      ((pairsOf obj).length ≤ smallCapacity → (keys (received M obj)).Nodup) := by
  rcases h.entries_cases with ⟨hsmall, he⟩ | ⟨hbig, -⟩
  · rw [he]
    exact ⟨fun hnd _ => hnd, fun hnd => hnd hsmall⟩
  · exact iff_of_true (nodup_keys_of_map_mode h.inv (h.large hbig).1)
      fun hsmall => absurd hbig (Nat.not_lt.mpr hsmall)

end HybridMessageMap

end MsgFrame
