import MessageFrame.Container.Endings
import MessageFrame.Container.Moves

/-!
# Unpacking under memory pressure

`unpack` begins with a `clear`, so it does not matter what state the container is in: valid, torn
by a conversion that ran out of memory, or moved from. And it stores an entry only after everything
that can fail for this entry has succeeded. So, whichever allocations fail, it leaves a valid
container (`unpack_ending`): with all the entries that the object stands for when it returns, and
with the first few of them when it throws.

The two loops are followed entry by entry. In vector mode a round can fail twice, in the conversion
of the pair and in the growth of the vector; in map mode only the conversion can fail.
-/

namespace MsgFrame

open Msgpack AssocList

namespace Memory

variable {μ : Type} [UnorderedMap μ ParameterKey ParameterValue]

/-- The container is valid and holds the entries of the list, in map mode the first ones of each
key. -/
structure Contains (config : FrameConfig) (es : List (ParameterKey × ParameterValue))
    (m : HybridMessageMap μ) : Prop where
  inv : m.Inv
  cfg : m.cfg = config
  entries : m.entries = es ∨ m.isVectorMode = false ∧ m.entries.Perm (firsts es)

/-- How `unpack` ends. -/
inductive Unpacking (M : Codec) (obj : Object) (config : FrameConfig) :
    Outcome (Memory μ) Unit → Prop
  | done {s' : Memory μ} (hconv : HybridMessageMap.convertible M obj = true)
      (h : Contains config (HybridMessageMap.received M obj) s'.container) :
    Unpacking M obj config (.returned () s')
  | stopped {s' : Memory μ} {es : List (ParameterKey × ParameterValue)}
      (hpre : es <+: HybridMessageMap.received M obj) (h : Contains config es s'.container) :
    Unpacking M obj config (.threw s')

variable {fails : ℕ → Bool} {M : Codec}

/-! ### The two loops -/

variable (fails M) in
/-- One round in vector mode: the pair does not convert, or the vector grows or does not. -/
private theorem unpackEntry_vector (pair : Object × Object)
    (l : List (ParameterKey × ParameterValue)) (cfg : FrameConfig) (spare : Option μ)
    (capacity attempts : ℕ) :
    (∃ e capacity' attempts', HybridMessageMap.wireEntry M pair = some e ∧
      unpackEntry fails M pair ⟨⟨true, l, cfg, spare⟩, capacity, attempts⟩ =
        .returned () ⟨⟨true, l ++ [e], cfg, spare⟩, capacity', attempts'⟩) ∨
    ∃ attempts', unpackEntry fails M pair ⟨⟨true, l, cfg, spare⟩, capacity, attempts⟩ =
      .threw ⟨⟨true, l, cfg, spare⟩, capacity, attempts'⟩ := by
  unfold unpackEntry HybridMessageMap.wireEntry
  cases hkey : M.asStringView pair.1 with
  | none => exact .inr ⟨attempts, rfl⟩
  | some keyView =>
    cases hval : ParameterValue.unpack M pair.2 with
    | none => exact .inr ⟨attempts, rfl⟩
    | some val =>
      have happend := emplaceBack_eq fails ⟨keyView⟩ val ⟨⟨true, l, cfg, spare⟩, capacity, attempts⟩
      have hbody : (Proc.orThrow (some keyView) >>= fun keyView =>
          Proc.orThrow (some val) >>= fun val => Proc.get >>= fun s =>
            if s.container.isVectorMode then emplaceBack fails ⟨keyView⟩ val
            else onContainer (HybridMessageMap.onMap (UnorderedMap.emplace · ⟨keyView⟩ val)) :
          Proc (Memory μ) Unit) ⟨⟨true, l, cfg, spare⟩, capacity, attempts⟩ =
          emplaceBack fails ⟨keyView⟩ val ⟨⟨true, l, cfg, spare⟩, capacity, attempts⟩ := rfl
      rw [hbody, happend]
      split_ifs
      · exact .inl ⟨_, _, _, rfl, rfl⟩
      · exact .inr ⟨_, rfl⟩
      · exact .inl ⟨_, _, _, rfl, rfl⟩

variable (fails M) in
/-- The loop in vector mode. -/
private theorem forEach_unpackEntry_vector (pairs : List (Object × Object))
    (l : List (ParameterKey × ParameterValue)) (cfg : FrameConfig) (spare : Option μ)
    (capacity attempts : ℕ) :
    (∃ capacity' attempts', HybridMessageMap.convertible M (.map pairs) = true ∧
      Proc.forEach (unpackEntry fails M) pairs ⟨⟨true, l, cfg, spare⟩, capacity, attempts⟩ =
        .returned () ⟨⟨true, l ++ HybridMessageMap.received M (.map pairs), cfg, spare⟩, capacity',
          attempts'⟩) ∨
    ∃ es capacity' attempts', es <+: HybridMessageMap.received M (.map pairs) ∧
      Proc.forEach (unpackEntry fails M) pairs ⟨⟨true, l, cfg, spare⟩, capacity, attempts⟩ =
        .threw ⟨⟨true, l ++ es, cfg, spare⟩, capacity', attempts'⟩ := by
  induction pairs generalizing l capacity attempts with
  | nil =>
    refine .inl ⟨capacity, attempts, rfl, ?_⟩
    rw [Proc.forEach_nil, HybridMessageMap.received, HybridMessageMap.pairsOf, Proc.converted,
      List.append_nil]
  | cons pair pairs ih =>
    rw [Proc.forEach_cons]
    rcases unpackEntry_vector fails M pair l cfg spare capacity attempts with
      ⟨e, capacity₁, attempts₁, hwire, hround⟩ | ⟨attempts₁, hround⟩
    · have hrec : HybridMessageMap.received M (.map (pair :: pairs)) =
          e :: HybridMessageMap.received M (.map pairs) := by
        simp only [HybridMessageMap.received, HybridMessageMap.pairsOf, Proc.converted, hwire]
      have hconv : HybridMessageMap.convertible M (.map (pair :: pairs)) =
          HybridMessageMap.convertible M (.map pairs) := by
        simp [HybridMessageMap.convertible, HybridMessageMap.pairsOf, Proc.converts, hwire]
      rw [Proc.bind_of_returned hround, hrec, hconv]
      rcases ih (l ++ [e]) capacity₁ attempts₁ with
        ⟨capacity', attempts', hall, hloop⟩ | ⟨es, capacity', attempts', hpre, hloop⟩
      · refine .inl ⟨capacity', attempts', hall, ?_⟩
        rw [hloop, List.append_assoc, List.singleton_append]
      · refine .inr ⟨e :: es, capacity', attempts', List.cons_prefix_cons.mpr ⟨rfl, hpre⟩, ?_⟩
        rw [hloop, List.append_assoc, List.singleton_append]
    · refine .inr ⟨[], capacity, attempts₁, List.nil_prefix, ?_⟩
      rw [Proc.bind_of_threw hround, List.append_nil]

/-- The loop in map mode. -/
private theorem forEach_unpackEntry_map (pairs : List (Object × Object)) (cfg : FrameConfig)
    (map : μ) (capacity attempts : ℕ) :
    Proc.forEach (unpackEntry fails M) pairs ⟨⟨false, [], cfg, some map⟩, capacity, attempts⟩ =
      if HybridMessageMap.convertible M (.map pairs) then
        .returned () ⟨⟨false, [], cfg, some (UnorderedMap.emplaceAll map
          (HybridMessageMap.received M (.map pairs)))⟩, capacity, attempts⟩
      else .threw ⟨⟨false, [], cfg, some (UnorderedMap.emplaceAll map
        (HybridMessageMap.received M (.map pairs)))⟩, capacity, attempts⟩ := by
  refine Proc.forEach_converts (f := HybridMessageMap.wireEntry M)
    (fun map => (⟨⟨false, [], cfg, some map⟩, capacity, attempts⟩ : Memory μ))
    (fun map e => UnorderedMap.emplace map e.1 e.2) (fun pair e map he => ?_)
    (fun pair map he => ?_) pairs map
  · obtain ⟨hkey, hval⟩ := HybridMessageMap.wireEntry_eq_some he
    unfold unpackEntry
    rw [hkey, hval]
    rfl
  · unfold unpackEntry
    cases hkey : M.asStringView pair.1 with
    | none => rfl
    | some keyView =>
      cases hval : ParameterValue.unpack M pair.2 with
      | none => rfl
      | some val => simp [HybridMessageMap.wireEntry, hkey, hval] at he

/-! ### A whole call -/

variable [LawfulUnorderedMap μ]

/-- The members of a container that has been cleared. -/
private theorem cleared_shape {cfg : FrameConfig} {m : HybridMessageMap μ}
    (h : m = .ofConfig cfg ∨ m = { cfg := cfg }) :
    ∃ mode spare, m = ⟨mode, [], cfg, spare⟩ ∧ (mode = false → spare ≠ none) ∧
      ∀ map, spare = some map → UnorderedMap.toList map = [] := by
  rcases h with rfl | rfl
  · unfold HybridMessageMap.ofConfig
    split_ifs
    · refine ⟨false, _, rfl, fun _ => by simp, fun map hmap => ?_⟩
      obtain rfl := Option.some.inj hmap
      exact UnorderedMap.toList_reserve_eq_nil LawfulUnorderedMap.toList_empty _
    · exact ⟨true, none, rfl, nofun, nofun⟩
  · exact ⟨true, none, rfl, nofun, nofun⟩

omit [LawfulUnorderedMap μ] in
/-- Such a container holds nothing. -/
private theorem Contains.nil {cfg : FrameConfig} {mode : Bool} {spare : Option μ}
    (hmode : mode = false → spare ≠ none)
    (hspare : ∀ map, spare = some map → UnorderedMap.toList map = []) :
    Contains cfg [] (⟨mode, [], cfg, spare⟩ : HybridMessageMap μ) := by
  cases mode with
  | true => exact ⟨.vector (Nat.zero_le _) hspare, rfl, .inl rfl⟩
  | false =>
    obtain ⟨map, rfl⟩ := Option.ne_none_iff_exists'.mp (hmode rfl)
    exact ⟨.map, rfl, .inl (hspare map rfl)⟩

/-- The part of `unpack` that stores many pairs, from the point where the map is there. -/
private theorem reserve_unpacking {pairs : List (Object × Object)} {cfg : FrameConfig} {mode : Bool}
    {map : μ} (hempty : UnorderedMap.toList map = []) (capacity attempts : ℕ) :
    Unpacking M (.map pairs) cfg ((do
      reserveMap fails pairs.length
      onContainer (Proc.modify fun m => { m with isVectorMode := false })
      Proc.forEach (unpackEntry fails M) pairs : Proc (Memory μ) Unit)
        ⟨⟨mode, [], cfg, some map⟩, capacity, attempts⟩) := by
  have hspare : ∀ map', some map = some map' → UnorderedMap.toList map' = [] := by
    rintro map' hmap
    rwa [← Option.some.inj hmap]
  have hreserve := reserveMap_eq fails pairs.length
    ⟨⟨mode, [], cfg, some map⟩, capacity, attempts⟩ rfl
  cases hf : fails attempts with
  | true =>
    simp only [hf, if_true] at hreserve
    rw [Proc.bind_of_threw hreserve]
    exact .stopped List.nil_prefix (.nil (fun _ => by simp) hspare)
  | false =>
    simp only [hf, Bool.false_eq_true, if_false] at hreserve
    rw [Proc.bind_of_returned hreserve]
    refine Eq.mpr (congrArg _ (forEach_unpackEntry_map pairs cfg
      (UnorderedMap.reserve map pairs.length) capacity (attempts + 1))) ?_
    have hcontains : Contains cfg (HybridMessageMap.received M (.map pairs))
        (⟨false, [], cfg, some (UnorderedMap.emplaceAll (UnorderedMap.reserve map pairs.length)
          (HybridMessageMap.received M (.map pairs)))⟩ : HybridMessageMap μ) := by
      refine ⟨.map, rfl, .inr ⟨rfl, UnorderedMap.toList_emplaceAll _ ?_ _⟩⟩
      rw [UnorderedMap.toList_reserve_eq_nil hempty]
    split_ifs with hconv
    · exact .done hconv hcontains
    · exact .stopped (List.prefix_refl _) hcontains

/-- **How `unpack` ends**, from any state of the container and whichever allocations fail. -/
theorem unpack_ending (fails : ℕ → Bool) (M : Codec) (obj : Object) (s : Memory μ) :
    Unpacking M obj s.container.cfg (unpack fails M obj s) := by
  unfold unpack
  rcases clear_cases fails s with ⟨s₁, hclear, hcontainer, -⟩ | ⟨s₁, hclear, hcontainer⟩
  · rw [Proc.bind_of_returned hclear]
    obtain ⟨mode, spare, hshape, hmode, hspare⟩ := cleared_shape hcontainer
    obtain ⟨container, capacity, attempts⟩ := s₁
    obtain rfl : container = ⟨mode, [], s.container.cfg, spare⟩ := hshape
    by_cases hobj : ∃ pairs, obj = .map pairs
    · obtain ⟨pairs, rfl⟩ := hobj
      by_cases hbig : smallCapacity < pairs.length
      · simp only [if_pos hbig]
        have hensure := ensureMap_eq fails
          ⟨⟨mode, [], s.container.cfg, spare⟩, capacity, attempts⟩
        cases spare with
        | some map =>
          rw [Proc.bind_of_returned hensure]
          exact reserve_unpacking (hspare map rfl) capacity attempts
        | none =>
          cases hf : fails attempts with
          | true =>
            simp only [hf, if_true] at hensure
            rw [Proc.bind_of_threw hensure]
            exact .stopped List.nil_prefix (.nil hmode hspare)
          | false =>
            simp only [hf, Bool.false_eq_true, if_false] at hensure
            rw [Proc.bind_of_returned hensure]
            exact reserve_unpacking LawfulUnorderedMap.toList_empty capacity (attempts + 1)
      · simp only [if_neg hbig]
        have hfits : ∀ {es : List (ParameterKey × ParameterValue)},
            es <+: HybridMessageMap.received M (.map pairs) →
            Contains s.container.cfg es
              (⟨true, es, s.container.cfg, spare⟩ : HybridMessageMap μ) := by
          intro es hpre
          have hlen : (HybridMessageMap.received M (.map pairs)).length ≤ pairs.length :=
            Proc.length_converted_le _ _
          have hle := hpre.length_le
          exact ⟨.vector (by omega) hspare, rfl, .inl rfl⟩
        rcases forEach_unpackEntry_vector fails M pairs [] s.container.cfg spare
          capacity attempts with ⟨capacity', attempts', hconv, hloop⟩ |
          ⟨es, capacity', attempts', hpre, hloop⟩
        · exact Eq.mpr (congrArg _ hloop) (.done hconv (hfits (List.prefix_refl _)))
        · exact Eq.mpr (congrArg _ hloop) (.stopped hpre (hfits hpre))
    · have hne : ∀ pairs, obj ≠ .map pairs := fun pairs he => hobj ⟨pairs, he⟩
      obtain ⟨hpairs, hrec⟩ := HybridMessageMap.received_of_ne_map (M := M) hne
      have hconv : HybridMessageMap.convertible M obj = true := by
        rw [HybridMessageMap.convertible, hpairs]
        rfl
      have hnil : Contains s.container.cfg (HybridMessageMap.received M obj)
          (⟨mode, [], s.container.cfg, spare⟩ : HybridMessageMap μ) := by
        rw [hrec]
        exact .nil hmode hspare
      cases obj with
      | map pairs => exact absurd rfl (hne pairs)
      | _ => exact .done hconv hnil
  · rw [Proc.bind_of_threw hclear]
    obtain ⟨mode, spare, hshape, hmode, hspare⟩ := cleared_shape (μ := μ) (.inr hcontainer)
    refine .stopped List.nil_prefix ?_
    rw [hshape]
    exact .nil hmode hspare

end Memory

end MsgFrame
