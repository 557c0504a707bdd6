import MessageFrame.Model.HybridMessageMap

/-!
# The mode/storage invariant and what each operation does

`HybridMessageMap.Inv` ties the mode flag to the storage it describes: in vector mode at most
`smallCapacity` entries and no live map entry, in map mode a map and an empty vector. Under it
the container is nothing but its list of `entries` — what `iterate` and `pack` traverse — and
every operation is described once, in terms of that list:

* the lookups answer with the first entry of the key (`find_eq`, `findView_eq`);
* an insertion appends, or, when it ends in map mode, leaves the first occurrences in some
  order (`Inserted`);
* a write through a pointer overwrites the first entry of the key in place (`Assigned`);
* `clear` empties the container and goes back to the mode of the hint.

Later modules never unfold an operation; they use `add_spec`, `addFlat_spec`, `set_spec`,
`setFlat_spec`, `update_spec`, `updateFlat_spec` and `clear_spec`.
-/

namespace MsgFrame

open Msgpack AssocList

namespace HybridMessageMap

variable {μ : Type} [UnorderedMap μ ParameterKey ParameterValue]

/-! ### Entries and invariant -/

/-- The entries in the order of traversal. -/
def entries (m : HybridMessageMap μ) : List (ParameterKey × ParameterValue) :=
  if m.isVectorMode then m.vectorStorage
  else
    match m.mapStorage with
    | some map => UnorderedMap.toList map
    | none => []

/-- The mode/storage invariant: the flag says which storage holds the entries, and the other
one holds none. -/
inductive Inv : HybridMessageMap μ → Prop
  | vector {l : List (ParameterKey × ParameterValue)} {cfg : FrameConfig} {spare : Option μ}
      (hlen : l.length ≤ smallCapacity)
      (hspare : ∀ map, spare = some map → UnorderedMap.toList map = []) :
    Inv ⟨true, l, cfg, spare⟩
  | map {map : μ} {cfg : FrameConfig} : Inv ⟨false, [], cfg, some map⟩

@[simp] theorem entries_vector (l : List (ParameterKey × ParameterValue)) (cfg : FrameConfig)
    (spare : Option μ) : (⟨true, l, cfg, spare⟩ : HybridMessageMap μ).entries = l := rfl

@[simp] theorem entries_map (l : List (ParameterKey × ParameterValue)) (cfg : FrameConfig)
    (map : μ) : (⟨false, l, cfg, some map⟩ : HybridMessageMap μ).entries =
      UnorderedMap.toList map := rfl

/-- The invariant as the storage members show it. -/
theorem inv_iff {m : HybridMessageMap μ} : m.Inv ↔
    (m.isVectorMode = false → m.mapStorage ≠ none ∧ m.vectorStorage = []) ∧
    (m.isVectorMode = true → m.vectorStorage.length ≤ smallCapacity ∧
      ∀ map, m.mapStorage = some map → UnorderedMap.toList map = []) := by
  constructor
  · rintro (⟨hlen, hspare⟩ | _)
    · exact ⟨fun h => absurd h (by simp), fun _ => ⟨hlen, hspare⟩⟩
    · exact ⟨fun _ => ⟨by simp, rfl⟩, fun h => absurd h (by simp)⟩
  · obtain ⟨mode, l, cfg, storage⟩ := m
    rintro ⟨hmap, hvec⟩
    cases mode with
    | true => exact .vector (hvec rfl).1 (hvec rfl).2
    | false =>
      obtain ⟨hne, hl⟩ := hmap rfl
      obtain ⟨map, hm⟩ := Option.ne_none_iff_exists'.mp hne
      simp only at hm hl
      rw [hm, hl]
      exact .map

/-- The callback of `iterate` sees exactly the entries, in order. -/
theorem iterate_eq {σ : Type} (m : HybridMessageMap μ)
    (f : σ → ByteString → ParameterValue → σ) (userData : σ) :
    m.iterate (some f) userData = m.entries.foldl (fun s e => f s e.1.fullKey e.2) userData := by
  simp only [iterate, entries]
  split_ifs
  · rfl
  · cases m.mapStorage <;> rfl

/-- The pairs that a callback of `iterate` is given, in order. -/
def visits (m : HybridMessageMap μ) : List (ByteString × ParameterValue) :=
  m.iterate (some fun l key val => l ++ [(key, val)]) []

/-- An entry as the callback sees it. -/
def visit (e : ParameterKey × ParameterValue) : ByteString × ParameterValue := (e.1.fullKey, e.2)

/-- A traversal visits every entry, in order. -/
theorem visits_eq (m : HybridMessageMap μ) : m.visits = m.entries.map visit := by
  have hfold : ∀ (es : List (ParameterKey × ParameterValue))
      (acc : List (ByteString × ParameterValue)),
      es.foldl (fun s e => s ++ [(e.1.fullKey, e.2)]) acc = acc ++ es.map visit := by
    intro es
    induction es with
    | nil => simp
    | cons e es ih =>
      intro acc
      rw [List.foldl_cons, ih, List.map_cons, List.append_assoc, List.singleton_append]
      rfl
  rw [visits, iterate_eq, hfold, List.nil_append]

/-- The keys that a traversal visits are those of the entries. -/
theorem keys_visits (m : HybridMessageMap μ) :
    keys m.visits = (keys m.entries).map ParameterKey.fullKey := by
  rw [visits_eq, keys, keys, List.map_map, List.map_map]
  rfl

theorem mem_visits {m : HybridMessageMap μ} {key : ByteString} {val : ParameterValue} :
    (key, val) ∈ m.visits ↔ (⟨key⟩, val) ∈ m.entries := by
  rw [visits_eq, List.mem_map]
  constructor
  · rintro ⟨⟨⟨k⟩, v⟩, hmem, hvisit⟩
    cases hvisit
    exact hmem
  · exact fun hmem => ⟨_, hmem, rfl⟩

theorem nodup_keys_visits {m : HybridMessageMap μ} :
    (keys m.visits).Nodup ↔ (keys m.entries).Nodup := by
  rw [keys_visits]
  exact List.nodup_map_iff fun a b h => congrArg ParameterKey.mk h

/-! ### Lookups -/

/-- The pointer to the value of a key. -/
def locate (m : HybridMessageMap μ) (k : ParameterKey) : Option EntryRef :=
  if m.isVectorMode then (indexOf? k m.vectorStorage).map .vector
  else m.mapStorage.bind fun map => (UnorderedMap.find map k).map fun _ => .map k

/-- A scan of the vector with a predicate that compares keys. -/
private theorem findIf_eq_indexOf? {p : ParameterKey × ParameterValue → Checked Bool}
    {k : ParameterKey} (hp : ∀ e, p e = .ok (decide (e.1 = k)))
    (l : List (ParameterKey × ParameterValue)) :
    Checked.findIf p l = .ok (indexOf? k l) := Checked.findIf_eq hp l

private theorem keyMatches_entry (device param : ByteString)
    (e : ParameterKey × ParameterValue) : keyMatches device param e.1.fullKey =
      .ok (decide (e.1 = ⟨composeKey device param⟩)) := by
  rw [keyMatches_eq]
  obtain ⟨⟨key⟩, v⟩ := e
  simp

variable {m : HybridMessageMap μ}

theorem findRef_eq (h : m.Inv) (device param : ByteString) :
    m.findRef device param = .ok (m.locate ⟨composeKey device param⟩) := by
  cases h with
  | vector _ _ =>
    simp only [findRef, locate, if_true, findIf_eq_indexOf? (keyMatches_entry device param)]
    rfl
  | map =>
    simp only [findRef, locate, composeKey, List.append_assoc, List.singleton_append]
    rfl

theorem findViewRef_eq (h : m.Inv) (keyView : ByteString) :
    m.findViewRef keyView = .ok (m.locate ⟨keyView⟩) := by
  have hp : ∀ e : ParameterKey × ParameterValue,
      (.ok (decide (e.1.fullKey = keyView)) : Checked Bool) = .ok (decide (e.1 = ⟨keyView⟩)) := by
    rintro ⟨⟨key⟩, v⟩
    simp
  cases h with
  | vector _ _ =>
    simp only [findViewRef, locate, if_true, findIf_eq_indexOf? hp]
    rfl
  | map => rfl

theorem findForWrite_eq (h : m.Inv) (device param : ByteString) :
    m.findForWrite device param = .ok (m.locate ⟨composeKey device param⟩) := by
  rw [← findRef_eq h]
  unfold findForWrite mapFindMutable findRef
  split_ifs <;> rfl

variable [LawfulUnorderedMap μ]

theorem locate_eq_none (h : m.Inv) {k : ParameterKey} :
    m.locate k = none ↔ k ∉ keys m.entries := by
  cases h with
  | vector _ _ => simp [locate, indexOf?_eq_none]
  | map =>
    rw [entries_map, ← lookup_eq_none, ← LawfulUnorderedMap.find_eq]
    simp [locate]

theorem mem_keys_of_locate (h : m.Inv) {k : ParameterKey} {ref : EntryRef}
    (hr : m.locate k = some ref) : k ∈ keys m.entries := by
  by_contra hnot
  rw [(locate_eq_none h).mpr hnot] at hr
  cases hr

theorem valueAt_locate (h : m.Inv) (k : ParameterKey) :
    (m.locate k).bind m.valueAt = m.entries.lookup k := by
  cases h with
  | @vector l _ _ _ _ =>
    rw [entries_vector, ← getElem?_indexOf?]
    simp only [locate, if_true]
    cases indexOf? k l <;> rfl
  | @map map _ =>
    rw [entries_map, ← LawfulUnorderedMap.find_eq]
    simp only [locate, Option.bind_some, Bool.false_eq_true, if_false]
    cases hf : UnorderedMap.find map k with
    | none => rfl
    | some v => exact hf

/-- **`find` answers with the first entry of the composed key.** -/
theorem find_eq (h : m.Inv) (device param : ByteString) :
    m.find device param = .ok (m.entries.lookup ⟨composeKey device param⟩) := by
  rw [find, findRef_eq h, ← valueAt_locate h]
  rfl

/-- **`find_flat` answers with the first entry of the key.** -/
theorem findView_eq (h : m.Inv) (keyView : ByteString) :
    m.findView keyView = .ok (m.entries.lookup ⟨keyView⟩) := by
  rw [findView, findViewRef_eq h, ← valueAt_locate h]
  rfl

theorem findFlat_eq (h : m.Inv) (flatKey : FlatKey) :
    m.findFlat flatKey = .ok (m.entries.lookup ⟨flatKey.view⟩) := findView_eq h flatKey.view

/-- `size` counts the entries that a traversal visits. -/
theorem size_eq (h : m.Inv) : m.size = .ok m.entries.length := by
  cases h with
  | vector _ _ => rfl
  | map =>
    rw [entries_map, ← LawfulUnorderedMap.size_eq]
    rfl

omit [LawfulUnorderedMap μ] in
/-- Vector mode never holds more than `smallCapacity` entries. -/
theorem length_entries_le (h : m.Inv) (hmode : m.isVectorMode = true) :
    m.entries.length ≤ smallCapacity := by
  cases h with
  | vector hlen _ => exact hlen
  | map => simp at hmode

/-- Map mode never holds a key twice. -/
theorem nodup_keys_of_map_mode (h : m.Inv) (hmode : m.isVectorMode = false) :
    (keys m.entries).Nodup := by
  cases h with
  | vector _ _ => simp at hmode
  | map => exact LawfulUnorderedMap.nodup_keys _

/-! ### Writing through a pointer -/

omit [LawfulUnorderedMap μ] in
/-- The value of `k` was overwritten in place. -/
structure Assigned (m : HybridMessageMap μ) (k : ParameterKey) (v : ParameterValue)
    (m' : HybridMessageMap μ) : Prop where
  inv : m'.Inv
  cfg : m'.cfg = m.cfg
  mode : m'.isVectorMode = m.isVectorMode
  entries : m'.entries = replaceFirst k v m.entries

theorem assignAt_spec (h : m.Inv) {k : ParameterKey} {ref : EntryRef}
    (hr : m.locate k = some ref) (v : ParameterValue) :
    ∃ m', assignAt ref v m = .returned () m' ∧ Assigned m k v m' := by
  refine ⟨_, rfl, ?_⟩
  cases h with
  | @vector l _ _ hlen hspare =>
    simp only [locate, if_true, Option.map_eq_some_iff] at hr
    obtain ⟨i, hi, rfl⟩ := hr
    exact ⟨.vector (by rwa [List.length_modify]) hspare, rfl, rfl, modify_indexOf? hi v⟩
  | @map map _ =>
    simp only [locate, Option.bind_some, Bool.false_eq_true, if_false, Option.map_eq_some_iff]
      at hr
    obtain ⟨w, hw, rfl⟩ := hr
    -- the pointer was found, so its key is in the map
    have hmem : k ∈ keys (UnorderedMap.toList map) := by
      rw [← isSome_lookup, ← LawfulUnorderedMap.find_eq, hw]
      rfl
    exact ⟨.map, rfl, rfl, LawfulUnorderedMap.toList_assign map k v hmem⟩

/-! ### Insertion -/

omit [LawfulUnorderedMap μ] in
/-- An entry was inserted: appended to the vector, or, in map mode, added to the first
occurrences of what was there unless its key was. -/
structure Inserted (m : HybridMessageMap μ) (k : ParameterKey) (v : ParameterValue)
    (m' : HybridMessageMap μ) : Prop where
  inv : m'.Inv
  cfg : m'.cfg = m.cfg
  entries : (m.isVectorMode = true ∧ m'.isVectorMode = true ∧ m'.entries = m.entries ++ [(k, v)]) ∨
    (m'.isVectorMode = false ∧ m'.entries.Perm (firsts (m.entries ++ [(k, v)])))

omit [UnorderedMap μ ParameterKey ParameterValue] [LawfulUnorderedMap μ] in
theorem onMap_apply (f : μ → μ) (mode : Bool) (l : List (ParameterKey × ParameterValue))
    (cfg : FrameConfig) (map : μ) : onMap f ⟨mode, l, cfg, some map⟩ =
      .returned () ⟨mode, l, cfg, some (f map)⟩ := rfl

omit [LawfulUnorderedMap μ] in
/-- The loop of `convert_to_map`: entries are emplaced into the live map. -/
private theorem forEach_emplace (es l : List (ParameterKey × ParameterValue))
    (mode : Bool) (cfg : FrameConfig) (map : μ) :
    Proc.forEach (fun pair => onMap (UnorderedMap.emplace · ⟨pair.1.fullKey⟩ pair.2)) es
        ⟨mode, l, cfg, some map⟩ =
      .returned () ⟨mode, l, cfg, some (UnorderedMap.emplaceAll map es)⟩ := by
  induction es generalizing map with
  | nil => rfl
  | cons e es ih =>
    rw [Proc.forEach_cons, Proc.bind_of_returned (onMap_apply _ mode l cfg map)]
    exact ih _

omit [LawfulUnorderedMap μ] in
/-- A conversion emplaces all entries, into the map that is left over if there is one. -/
theorem convertToMap_eq (mode : Bool) (l : List (ParameterKey × ParameterValue))
    (cfg : FrameConfig) (spare : Option μ) : convertToMap ⟨mode, l, cfg, spare⟩ =
      .returned () ⟨false, [], cfg, some (UnorderedMap.emplaceAll
        (UnorderedMap.reserve (spare.getD UnorderedMap.empty) smallCapacity) l)⟩ := by
  have hmap : (if spare.isNone then
      (⟨false, l, cfg, some UnorderedMap.empty⟩ : HybridMessageMap μ)
      else ⟨false, l, cfg, spare⟩) = ⟨false, l, cfg, some (spare.getD UnorderedMap.empty)⟩ := by
    cases spare <;> rfl
  unfold convertToMap
  simp only [Proc.modify_bind]
  rw [hmap, Proc.bind_of_returned (onMap_apply _ false l cfg _), Proc.get_bind,
    Proc.bind_of_returned (forEach_emplace l l false cfg _)]
  rfl

/-- **Conversion**: a vector becomes a map of its first occurrences. -/
theorem convertToMap_spec (l : List (ParameterKey × ParameterValue)) (cfg : FrameConfig)
    {spare : Option μ} (hspare : ∀ map, spare = some map → UnorderedMap.toList map = []) :
    ∃ map, convertToMap ⟨true, l, cfg, spare⟩ = .returned () ⟨false, [], cfg, some map⟩ ∧
      (UnorderedMap.toList map).Perm (firsts l) := by
  have hempty : UnorderedMap.toList (spare.getD UnorderedMap.empty) = [] := by
    cases spare with
    | none => exact LawfulUnorderedMap.toList_empty
    | some map => exact hspare map rfl
  refine ⟨_, convertToMap_eq true l cfg spare, UnorderedMap.toList_emplaceAll _ ?_ l⟩
  rw [UnorderedMap.toList_reserve_eq_nil hempty]

omit [LawfulUnorderedMap μ] in
theorem mapEmplace_eq (device param : ByteString) (val : Arg) :
    (mapEmplace device param val : Proc (HybridMessageMap μ) Unit) =
      onMap (UnorderedMap.emplace · ⟨composeKey device param⟩ val.value) := by
  cases val <;> simp only [mapEmplace, mapEmplaceRvalue, mapEmplaceLvalue,
    ParameterKey.ofParts_eq, Arg.value]

/-- The common shape of `add_impl` and `add_flat`. -/
private theorem insert_spec (h : m.Inv) (k : ParameterKey) (v : ParameterValue) :
    ∃ m', (do
      let m ← Proc.get
      if m.isVectorMode then
        if smallCapacity ≤ m.vectorStorage.length then
          convertToMap
          onMap (UnorderedMap.emplace · k v)
        else emplaceBack k v
      else onMap (UnorderedMap.emplace · k v) : Proc (HybridMessageMap μ) Unit) m =
        .returned () m' ∧ Inserted m k v m' := by
  rw [Proc.get_bind]
  cases h with
  | @vector l cfg spare hlen hspare =>
    rw [if_pos rfl]
    by_cases hfull : smallCapacity ≤ l.length
    · -- the entry that does not fit: convert, then emplace into the map
      obtain ⟨map, hconv, hperm⟩ := convertToMap_spec l cfg hspare
      rw [if_pos hfull, Proc.bind_of_returned hconv]
      refine ⟨_, rfl, .map, rfl, .inr ⟨rfl, ?_⟩⟩
      rw [entries_map, entries_vector, firsts_append_singleton]
      exact (LawfulUnorderedMap.toList_emplace map k v).trans (insertNew_perm hperm (k, v))
    · -- there is room in the vector, which may come to hold the key twice
      rw [if_neg hfull]
      refine ⟨_, rfl, .vector ?_ hspare, rfl, .inl ⟨rfl, rfl, rfl⟩⟩
      rw [List.length_append, List.length_singleton]
      exact Nat.lt_of_not_le hfull
  | @map map cfg =>
    -- `emplace` keeps the entry that is there
    rw [if_neg (by simp)]
    refine ⟨_, rfl, .map, rfl, .inr ⟨rfl, ?_⟩⟩
    rw [entries_map, entries_map, firsts_append_singleton,
      firsts_eq_self (LawfulUnorderedMap.nodup_keys map)]
    exact LawfulUnorderedMap.toList_emplace map k v

theorem add_spec (h : m.Inv) (device param : ByteString) (val : Arg) :
    ∃ m', add device param val m = .returned () m' ∧
      Inserted m ⟨composeKey device param⟩ val.value m' := by
  unfold add
  rw [mapEmplace_eq, ParameterKey.ofParts_eq]
  exact insert_spec h _ _

theorem addFlat_spec (h : m.Inv) (flatKey : FlatKey) (val : Arg) :
    ∃ m', addFlat flatKey val m = .returned () m' ∧ Inserted m ⟨flatKey.view⟩ val.value m' :=
  insert_spec h _ _

/-- After an insertion every key is found as in the vector with the entry appended, whether
or not the container was converted, and duplicates or not. -/
theorem Inserted.lookup {k : ParameterKey} {v : ParameterValue} {m' : HybridMessageMap μ}
    (h : Inserted m k v m') (k' : ParameterKey) :
    m'.entries.lookup k' = (m.entries ++ [(k, v)]).lookup k' := by
  rcases h.entries with ⟨-, -, he⟩ | ⟨hmode, hperm⟩
  · rw [he]
  · rw [lookup_eq_of_perm hperm (nodup_keys_of_map_mode h.inv hmode), lookup_firsts]

omit [LawfulUnorderedMap μ] in
/-- Inserting an absent key into a container without duplicates adds exactly one entry. -/
theorem Inserted.perm {k : ParameterKey} {v : ParameterValue} {m' : HybridMessageMap μ}
    (h : Inserted m k v m') (hnd : (keys (m.entries ++ [(k, v)])).Nodup) :
    m'.entries.Perm (m.entries ++ [(k, v)]) := by
  rcases h.entries with ⟨-, -, he⟩ | ⟨-, hperm⟩
  · rw [he]
  · rwa [firsts_eq_self hnd] at hperm

/-! ### Upsert, update, clear -/

theorem set_spec (h : m.Inv) (device param : ByteString) (val : Arg) :
    ∃ m', set device param val m = .returned () m' ∧
      (⟨composeKey device param⟩ ∈ keys m.entries ∧
          Assigned m ⟨composeKey device param⟩ val.value m' ∨
        ⟨composeKey device param⟩ ∉ keys m.entries ∧
          Inserted m ⟨composeKey device param⟩ val.value m') := by
  unfold set
  rw [Proc.get_bind, findForWrite_eq h, Proc.eval_ok_bind]
  cases hr : m.locate ⟨composeKey device param⟩ with
  | none =>
    obtain ⟨m', hadd, hins⟩ := add_spec h device param val
    exact ⟨m', hadd, .inr ⟨(locate_eq_none h).mp hr, hins⟩⟩
  | some ref =>
    obtain ⟨m', hassign, has⟩ := assignAt_spec h hr val.value
    exact ⟨m', hassign, .inl ⟨mem_keys_of_locate h hr, has⟩⟩

theorem setFlat_spec (h : m.Inv) (flatKey : FlatKey) (val : Arg) :
    ∃ m', setFlat flatKey val m = .returned () m' ∧
      (⟨flatKey.view⟩ ∈ keys m.entries ∧ Assigned m ⟨flatKey.view⟩ val.value m' ∨
        ⟨flatKey.view⟩ ∉ keys m.entries ∧ Inserted m ⟨flatKey.view⟩ val.value m') := by
  unfold setFlat findFlatRef
  rw [Proc.get_bind, findViewRef_eq h, Proc.eval_ok_bind]
  cases hr : m.locate ⟨flatKey.view⟩ with
  | none =>
    obtain ⟨m', hadd, hins⟩ := addFlat_spec h flatKey val
    exact ⟨m', hadd, .inr ⟨(locate_eq_none h).mp hr, hins⟩⟩
  | some ref =>
    obtain ⟨m', hassign, has⟩ := assignAt_spec h hr val.value
    exact ⟨m', hassign, .inl ⟨mem_keys_of_locate h hr, has⟩⟩

/-- A strict update overwrites a present key and otherwise changes nothing. -/
theorem update_spec (h : m.Inv) (device param : ByteString) (val : Arg) :
    (⟨composeKey device param⟩ ∈ keys m.entries ∧ ∃ m', update device param val m =
        .returned true m' ∧ Assigned m ⟨composeKey device param⟩ val.value m') ∨
      (⟨composeKey device param⟩ ∉ keys m.entries ∧
        update device param val m = .returned false m) := by
  unfold update
  rw [Proc.get_bind, findForWrite_eq h, Proc.eval_ok_bind]
  cases hr : m.locate ⟨composeKey device param⟩ with
  | none => exact .inr ⟨(locate_eq_none h).mp hr, rfl⟩
  | some ref =>
    obtain ⟨m', hassign, has⟩ := assignAt_spec h hr val.value
    exact .inl ⟨mem_keys_of_locate h hr, m', Proc.bind_of_returned hassign _, has⟩

theorem updateFlat_spec (h : m.Inv) (flatKey : FlatKey) (val : Arg) :
    (⟨flatKey.view⟩ ∈ keys m.entries ∧ ∃ m', updateFlat flatKey val m = .returned true m' ∧
        Assigned m ⟨flatKey.view⟩ val.value m') ∨
      (⟨flatKey.view⟩ ∉ keys m.entries ∧ updateFlat flatKey val m = .returned false m) := by
  unfold updateFlat findFlatRef
  rw [Proc.get_bind, findViewRef_eq h, Proc.eval_ok_bind]
  cases hr : m.locate ⟨flatKey.view⟩ with
  | none => exact .inr ⟨(locate_eq_none h).mp hr, rfl⟩
  | some ref =>
    obtain ⟨m', hassign, has⟩ := assignAt_spec h hr val.value
    exact .inl ⟨mem_keys_of_locate h hr, m', Proc.bind_of_returned hassign _, has⟩

omit [LawfulUnorderedMap μ] in
/-- **`clear` forgets everything but the hint**, from any state whatever: it leaves the
container that the constructor builds. -/
theorem clear_eq (m : HybridMessageMap μ) : clear m = .returned () (ofConfig m.cfg) := by
  rw [← construct_eq]
  rfl

omit [LawfulUnorderedMap μ] in
theorem ofConfig_inv (config : FrameConfig) : (ofConfig config : HybridMessageMap μ).Inv := by
  unfold ofConfig
  split_ifs
  · exact .map
  · exact .vector (Nat.zero_le _) fun _ h => by cases h

theorem entries_ofConfig (config : FrameConfig) :
    (ofConfig config : HybridMessageMap μ).entries = [] := by
  unfold ofConfig
  split_ifs
  · exact UnorderedMap.toList_reserve_eq_nil LawfulUnorderedMap.toList_empty _
  · rfl

omit [LawfulUnorderedMap μ] in
@[simp] theorem cfg_ofConfig (config : FrameConfig) :
    (ofConfig config : HybridMessageMap μ).cfg = config := by
  unfold ofConfig
  split_ifs <;> rfl

omit [LawfulUnorderedMap μ] in
theorem isVectorMode_ofConfig (config : FrameConfig) :
    (ofConfig config : HybridMessageMap μ).isVectorMode =
      decide (config.initialReserve ≤ smallCapacity) := by
  unfold ofConfig
  split_ifs with h
  · exact (decide_eq_false (by omega)).symm
  · exact (decide_eq_true (by omega)).symm

end HybridMessageMap

end MsgFrame
