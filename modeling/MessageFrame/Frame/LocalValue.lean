import MessageFrame.ForMathlib.Projection
import MessageFrame.Frame.Calls
import MessageFrame.Model.LocalValue
import MessageFrame.Value.Refinement

/-!
# When decoding is safe

The decoder unpacks every pair into a local value, and that value is destroyed whichever way the
round ends. An exception that leaves it with the tag of a string and no string behind it makes its
destructor undefined. Here this is followed through the whole of `deserialize`, for arbitrary
buffers: `PairLacksString` is the condition on the pairs, and `reception_defined_iff` says that a
run of calls on a frame has undefined behaviour exactly if it receives a buffer that meets it. Apart
from that the local values are not seen: the frame goes through what it goes through without them,
and none of their strings is lost or destroyed twice.
-/

namespace MsgFrame

open Msgpack Beside ValueObject

/-- The objects that were there are still there; others have come and gone. -/
def Grown (w w' : World) : Prop := ∃ n, w'.objects = w.objects ++ List.replicate n none

theorem Grown.refl (w : World) : Grown w w := ⟨0, by simp⟩

theorem Grown.trans {w₁ w₂ w₃ : World} (h : Grown w₁ w₂) (h' : Grown w₂ w₃) : Grown w₁ w₃ := by
  obtain ⟨m, hm⟩ := h
  obtain ⟨n, hn⟩ := h'
  exact ⟨m + n, by rw [hn, hm, List.append_assoc, List.replicate_append_replicate]⟩

theorem Grown.of_append {w w' : World} (h : w'.objects = w.objects ++ [none]) : Grown w w' :=
  ⟨1, h⟩

namespace HybridMessageMap

variable {μ : Type} [UnorderedMap μ ParameterKey ParameterValue] {M : Codec} {throws : ℕ → Bool}

/-! ### The pairs -/

/-- A pair behind pairs that convert has a key and the tag of a string, but no string, or memory
does not suffice for it. The local values of the pairs are the objects at the addresses from `k`
on. -/
def PairLacksString (M : Codec) (throws : ℕ → Bool) (k : ℕ) (pairs : List (Object × Object)) :
    Prop :=
  ∃ done pair rest, pairs = done ++ pair :: rest ∧ (∀ p ∈ done, (wireEntry M p).isSome) ∧
    (M.asStringView pair.1).isSome ∧ LacksString M pair.2 (throws (k + done.length))

theorem not_pairLacksString_nil (k : ℕ) : ¬PairLacksString M throws k [] := by
  rintro ⟨done, pair, rest, heq, -⟩
  cases done <;> cases heq

theorem pairLacksString_cons_iff {k : ℕ} {pair : Object × Object} {pairs : List (Object × Object)} :
    PairLacksString M throws k (pair :: pairs) ↔
      ((M.asStringView pair.1).isSome ∧ LacksString M pair.2 (throws k)) ∨
        ((wireEntry M pair).isSome ∧ PairLacksString M throws (k + 1) pairs) := by
  constructor
  · rintro ⟨done, pair', rest, heq, hdone, hkey, hlacks⟩
    cases done with
    | nil =>
      cases heq
      exact .inl ⟨hkey, hlacks⟩
    | cons p done =>
      cases heq
      refine .inr ⟨hdone _ List.mem_cons_self, done, pair', rest, rfl,
        fun p hp => hdone p (List.mem_cons_of_mem _ hp), hkey, ?_⟩
      rwa [List.length_cons, Nat.add_comm done.length, ← Nat.add_assoc] at hlacks
  · rintro (⟨hkey, hlacks⟩ | ⟨hsome, done, pair', rest, rfl, hdone, hkey, hlacks⟩)
    · exact ⟨[], pair, pairs, rfl, fun p hp => (by cases hp), hkey, hlacks⟩
    · refine ⟨pair :: done, pair', rest, rfl, ?_, hkey, ?_⟩
      · rintro p (_ | ⟨_, hp⟩)
        · exact hsome
        · exact hdone p hp
      · rwa [List.length_cons, Nat.add_comm done.length, ← Nat.add_assoc]

end HybridMessageMap

/-! ### The local value -/

namespace Beside

variable {σ : Type} {w w₀ w₁ : World} {s : σ}

theorem onObjects_of_returned {α : Type} {x : Proc World α} {a : α}
    (h : x w = .returned a w₁) : onObjects x (w, s) = .returned a (w₁, s) :=
  Proc.onField_of_returned h

theorem onObjects_of_threw {α : Type} {x : Proc World α} (h : x w = .threw w₁) :
    onObjects x (w, s) = .threw (w₁, s) := Proc.onField_of_threw h

/-- `ParameterValue val;` -/
theorem exists_local (w : World) :
    ∃ w₁, ofPayload .unknown false w = .returned w.objects.length w₁ ∧
      Built w.objects .unknown w₁ := by
  have hspec : Proc.Spec (Objects w.objects) (ofPayload .unknown false)
      (fun i w₁ => i = w.objects.length ∧ Built w.objects .unknown w₁) fun _ => False :=
    (ofPayload_spec .unknown false).mono (fun _ _ h => h)
      fun _ hE => absurd hE.1.1 Bool.false_ne_true
  obtain ⟨_, w₁, hexec, rfl, hbuilt⟩ := hspec.exists_returned rfl
  exact ⟨w₁, hexec, hbuilt⟩

/-- An object that is reset behind a statement that does not throw. -/
theorem onMember_bind_reset {x : Proc σ Unit} {i : ℕ} (hreset : reset i w = .returned () w₁)
    (hx : ∀ s', x s ≠ .threw s') : (onMember x >>= fun _ => onObjects (reset i)) (w, s) =
      (x s).mapState fun t => (w₁, t) := by
  have hmember : onMember x (w, s) = (x s).mapState fun t => (w, t) :=
    Proc.onField_snd_apply x w s
  rw [Proc.bind_apply, hmember]
  cases hxs : x s with
  | returned a t => exact onObjects_of_returned hreset
  | threw t => exact absurd hxs (hx t)
  | undefined e => rfl

/-- The destructor of an object whose tag lies, while the stack is unwound. -/
theorem withLocal_undefined {val : ℕ} {bits : UInt64} {block : Proc (World × σ) Unit}
    (hblock : block (w, s) = .threw (w₁, s))
    (hlie : w₁.objects[val]? = some (some ⟨.string, .scalar bits⟩)) :
    withLocal val block (w, s) = .undefined .notAlive := by
  unfold withLocal
  have hhandler : (onObjects (destroy val) >>= fun _ => Proc.throw : Proc (World × σ) Unit)
      (w₁, s) = .undefined .notAlive := by
    rw [Proc.bind_apply, onObjects, Proc.onField, destroy_of_lie hlie]
  rw [Proc.bind_apply, Proc.tryCatch_of_threw hblock, hhandler]

/-- The destructor of a well-tagged object, at the end of the block or after an exception. -/
theorem withLocal_destroys (w₁ : World) {o : ValueObject} {block : Proc (World × σ) Unit}
    {out : Outcome σ Unit} (hblock : block (w, s) = out.mapState fun t => (w₁, t))
    (hw₁ : w₁.objects = w₀.objects ++ [some o]) (ho : o.WellTagged) :
    ∃ w₂, w₂.objects = w₀.objects ++ [none] ∧
      withLocal w₀.objects.length block (w, s) = out.mapState fun t => (w₂, t) := by
  have hval : w₁.objects[w₀.objects.length]? = some (some o) := by
    rw [hw₁, List.getElem?_concat_length]
  obtain ⟨_, w₂, hexec, hw₂⟩ := (destroy_spec hval ho).exists_returned rfl
  have hdestroy : ∀ t : σ, onObjects (destroy w₀.objects.length) (w₁, t) =
      .returned () (w₂, t) := fun t => onObjects_of_returned hexec
  refine ⟨w₂, ?_, ?_⟩
  · rw [show w₂.objects = _ from hw₂, hw₁, List.set_append_right _ _ (Nat.le_refl _), Nat.sub_self,
      List.set_cons_zero]
  · unfold withLocal
    cases out with
    | returned a t =>
      rw [Proc.bind_of_returned (Proc.tryCatch_of_returned hblock _), hdestroy]
      rfl
    | threw t =>
      have hhandler : (onObjects (destroy w₀.objects.length) >>= fun _ => Proc.throw :
          Proc (World × σ) Unit) (w₁, t) = .threw (w₂, t) := by
        rw [Proc.bind_of_returned (hdestroy t)]
        rfl
      exact Proc.bind_of_threw ((Proc.tryCatch_of_threw hblock _).trans hhandler) _
    | undefined e =>
      have hbody : Proc.tryCatch block (onObjects (destroy w₀.objects.length) >>= fun _ =>
          Proc.throw) (w, s) = .undefined e := by
        rw [Proc.tryCatch, hblock]
        rfl
      rw [Proc.bind_apply, hbody]
      rfl

end Beside

/-! ### One round -/

namespace HybridMessageMap

variable {μ : Type} [UnorderedMap μ ParameterKey ParameterValue] {M : Codec} {throws : ℕ → Bool}
  {w : World} {m : HybridMessageMap μ} {pair : Object × Object}

namespace Scoped

/-- A key that does not convert: there is no local value yet. -/
theorem unpackEntry_of_key (hkey : M.asStringView pair.1 = none) :
    unpackEntry M throws pair (w, m) = .threw (w, m) := by
  unfold unpackEntry
  rw [hkey, Proc.orThrow_none_bind]

/-- A pair that announces a string that it lacks. -/
theorem unpackEntry_of_lacks {keyView : ByteString}
    (hkey : M.asStringView pair.1 = some keyView)
    (hlacks : LacksString M pair.2 (throws w.objects.length)) :
    unpackEntry M throws pair (w, m) = .undefined .notAlive := by
  obtain ⟨w₁, hlocal, o, ho, hw₁⟩ := exists_local w
  have hval : w₁.objects[w.objects.length]? = some (some o) := by
    rw [show w₁.objects = _ from hw₁, List.getElem?_concat_length]
  unfold unpackEntry
  rw [hkey, Proc.orThrow_some_bind, Proc.bind_of_returned (onObjects_of_returned hlocal)]
  have hspec := ValueObject.unpack_spec M hval ho.1 pair.2 (throws w.objects.length) w₁ rfl
  cases hexec : ValueObject.unpack M w.objects.length pair.2 (throws w.objects.length) w₁ with
  | returned r w₂ =>
    rw [hexec] at hspec
    exact absurd hlacks hspec.1
  | threw w₂ =>
    rw [hexec] at hspec
    obtain ⟨-, t, ht, hw₂⟩ := hspec
    obtain rfl := ht.mpr hlacks
    have hlie : w₂.objects[w.objects.length]? = some (some ⟨.string, .scalar 0⟩) := by
      rw [show w₂.objects = _ from hw₂,
        List.getElem?_set_self (List.getElem?_eq_some_iff.mp hval).1]
    exact withLocal_undefined (Proc.bind_of_threw (onObjects_of_threw hexec) _) hlie
  | undefined e => simp only [hexec] at hspec

omit [UnorderedMap μ ParameterKey ParameterValue] in
/-- A call of a member of the map does not throw. -/
private theorem onMap_ne_threw (f : μ → μ) (m m' : HybridMessageMap μ) : onMap f m ≠ .threw m' := by
  rw [onMap, Proc.get_bind]
  cases m.derefMap <;> simp

/-- An entry is stored without an exception. -/
private theorem store_ne_threw (key : ParameterKey) (val : ParameterValue)
    (m m' : HybridMessageMap μ) :
    (Proc.get >>= fun m => if m.isVectorMode then emplaceBack key val
      else onMap (UnorderedMap.emplace · key val)) m ≠ .threw m' := by
  rw [Proc.get_bind]
  split_ifs
  · simp [emplaceBack]
  · exact onMap_ne_threw _ m m'

/-- A pair that does not, whether it converts or not: the local value comes and goes. -/
theorem unpackEntry_of_not_lacks {keyView : ByteString}
    (hkey : M.asStringView pair.1 = some keyView)
    (hful : ¬LacksString M pair.2 (throws w.objects.length)) :
    ∃ w', w'.objects = w.objects ++ [none] ∧ unpackEntry M throws pair (w, m) =
      (HybridMessageMap.unpackEntry M pair m).mapState fun t => (w', t) := by
  obtain ⟨w₁, hlocal, o, ho, hw₁⟩ := exists_local w
  have hlen : w.objects.length < w₁.objects.length := by
    rw [show w₁.objects = _ from hw₁, List.length_append]
    exact Nat.lt_succ_self _
  have hval : w₁.objects[w.objects.length]? = some (some o) := by
    rw [show w₁.objects = _ from hw₁, List.getElem?_concat_length]
  have hset : ∀ c : Option ValueObject, w₁.objects.set w.objects.length c = w.objects ++ [c] := by
    intro c
    rw [show w₁.objects = _ from hw₁, List.set_append_right _ _ (Nat.le_refl _), Nat.sub_self,
      List.set_cons_zero]
  unfold unpackEntry
  rw [hkey, Proc.orThrow_some_bind, Proc.bind_of_returned (onObjects_of_returned hlocal)]
  have hspec := ValueObject.unpack_spec M hval ho.1 pair.2 (throws w.objects.length) w₁ rfl
  have hreaches := unpack_reaches hval ho.1 hful w₁ rfl
  cases hexec : ValueObject.unpack M w.objects.length pair.2 (throws w.objects.length) w₁ with
  | threw w₂ =>
    -- nothing is stored, and the tag is not that of a string
    rw [hexec] at hspec hreaches
    obtain ⟨-, t, ht, hw₂⟩ := hspec
    have hnone : ParameterValue.unpack M pair.2 = none := by
      cases hv : ParameterValue.unpack M pair.2 with
      | none => rfl
      | some v =>
        rw [hv] at hreaches
        cases hreaches
    have hplain : HybridMessageMap.unpackEntry M pair m = .threw m :=
      unpackEntry_of_none (by simp [wireEntry, hkey, hnone]) m
    rw [hplain]
    refine withLocal_destroys w₂ (o := ⟨t, .scalar 0⟩)
      (Proc.bind_of_threw (onObjects_of_threw hexec) _) ?_ (.scalar 0 fun hts => hful (ht.mp hts))
    rw [show w₂.objects = _ from hw₂, hset]
  | returned r w₂ =>
    rw [hexec] at hspec
    obtain ⟨-, _, hv, o₂, ⟨ho₂, rfl⟩, hw₂⟩ := hspec
    have hval₂ : w₂.objects[w.objects.length]? = some (some o₂) := by
      rw [show w₂.objects = _ from hw₂, List.getElem?_set_self hlen]
    have hentry : wireEntry M pair = some (⟨keyView⟩, o₂.toValue) := by
      simp [wireEntry, hkey, hv]
    obtain ⟨_, w₃, hload, rfl, hw₃⟩ := (load_spec hval₂ ho₂).exists_returned rfl
    have hval₃ : w₃.objects[w.objects.length]? = some (some o₂) := by
      rw [show w₃.objects = _ from hw₃, hval₂]
    obtain ⟨_, w₄, hreset, hw₄⟩ := (reset_spec hval₃ ho₂).exists_returned rfl
    refine withLocal_destroys w₄ (o := ⟨.unknown, .scalar 0⟩) ?_ ?_ (.scalar 0 (by decide))
    · rw [Proc.bind_of_returned (onObjects_of_returned hexec),
        Proc.bind_of_returned (onObjects_of_returned hload), unpackEntry_of_some hentry]
      exact onMember_bind_reset hreset (store_ne_threw ⟨keyView⟩ o₂.toValue m)
    · rw [show w₄.objects = _ from hw₄, show w₃.objects = _ from hw₃, show w₂.objects = _ from hw₂,
        List.set_set, hset]
  | undefined e => simp only [hexec] at hspec

/-! ### The loop -/

/-- A loop over pairs none of which lacks its string. -/
theorem forEach_unpackEntry {pairs : List (Object × Object)}
    (hnot : ¬PairLacksString M throws w.objects.length pairs) :
    Proc.Accompanies Grown (Proc.forEach (unpackEntry M throws) pairs)
      (Proc.forEach (HybridMessageMap.unpackEntry M) pairs) w m := by
  induction pairs generalizing w m with
  | nil => exact .pure Grown.refl () m
  | cons pair pairs ih =>
    obtain ⟨hhead, htail⟩ := not_or.mp (mt pairLacksString_cons_iff.mpr hnot)
    rw [Proc.forEach_cons, Proc.forEach_cons]
    cases hkey : M.asStringView pair.1 with
    | none =>
      have hplain : HybridMessageMap.unpackEntry M pair m = .threw m :=
        unpackEntry_of_none (by simp [wireEntry, hkey]) m
      refine ⟨w, .refl w, ?_⟩
      rw [Proc.bind_of_threw (unpackEntry_of_key hkey), Proc.bind_of_threw hplain]
      rfl
    | some keyView =>
      have hful : ¬LacksString M pair.2 (throws w.objects.length) :=
        fun h => hhead ⟨by rw [hkey]; rfl, h⟩
      obtain ⟨w₁, hw₁, hround⟩ := unpackEntry_of_not_lacks (m := m) hkey hful
      have hgrown : Grown w w₁ := .of_append hw₁
      unfold Proc.Accompanies
      rw [Proc.bind_apply, Proc.bind_apply, hround]
      cases hplain : HybridMessageMap.unpackEntry M pair m with
      | returned r m₁ =>
        -- a round that returns has stored an entry
        have hsome : (wireEntry M pair).isSome := by
          by_contra hnone
          rw [unpackEntry_of_none (by simpa using hnone)] at hplain
          cases hplain
        have hlen : w₁.objects.length = w.objects.length + 1 := by simp [hw₁]
        have hrest : ¬PairLacksString M throws w₁.objects.length pairs := fun h =>
          htail ⟨hsome, hlen ▸ h⟩
        obtain ⟨w', hw', hloop⟩ := ih hrest (m := m₁)
        exact ⟨w', hgrown.trans hw', hloop⟩
      | threw m₁ => exact ⟨w₁, hgrown, rfl⟩
      | undefined e => exact ⟨w₁, hgrown, rfl⟩

/-- A loop over pairs one of which lacks its string. -/
theorem forEach_unpackEntry_undefined {pairs : List (Object × Object)}
    (h : PairLacksString M throws w.objects.length pairs) :
    ∃ e, Proc.forEach (unpackEntry M throws) pairs (w, m) = .undefined e := by
  induction pairs generalizing w m with
  | nil => exact absurd h (not_pairLacksString_nil _)
  | cons pair pairs ih =>
    rw [Proc.forEach_cons]
    -- in both cases the pair has a key
    obtain ⟨keyView, hkey⟩ : ∃ keyView, M.asStringView pair.1 = some keyView := by
      rcases pairLacksString_cons_iff.mp h with ⟨hkey, -⟩ | ⟨hsome, -⟩
      · exact Option.isSome_iff_exists.mp hkey
      · obtain ⟨e, he⟩ := Option.isSome_iff_exists.mp hsome
        exact ⟨_, (wireEntry_eq_some he).1⟩
    by_cases hlacks : LacksString M pair.2 (throws w.objects.length)
    · rw [Proc.bind_apply, unpackEntry_of_lacks hkey hlacks]
      exact ⟨_, rfl⟩
    · obtain ⟨hsome, hrest⟩ : (wireEntry M pair).isSome ∧
          PairLacksString M throws (w.objects.length + 1) pairs :=
        (pairLacksString_cons_iff.mp h).resolve_left fun h => hlacks h.2
      obtain ⟨e, he⟩ := Option.isSome_iff_exists.mp hsome
      obtain ⟨w₁, hw₁, hround⟩ := unpackEntry_of_not_lacks (m := m) hkey hlacks
      refine Proc.bind_undefined_of_mapState hround (fun m₁ => ?_) fun _ m₁ _ => ?_
      · rw [unpackEntry_of_some he]
        exact store_ne_threw e.1 e.2 m m₁
      · refine ih ?_
        rwa [show w₁.objects.length = w.objects.length + 1 by simp [hw₁]]

/-! ### The parameter section -/

/-- `unpack` of an object none of whose pairs lacks its string. -/
theorem unpack_accompanies {obj : Object}
    (hnot : ¬PairLacksString M throws w.objects.length (pairsOf obj)) :
    Proc.Accompanies Grown (unpack M throws obj) (HybridMessageMap.unpack M obj) w m := by
  refine .bind_onField_snd Grown.refl fun _ m₁ _ => ?_
  cases obj with
  | map pairs =>
    by_cases hbig : smallCapacity < pairs.length
    · simp only [if_pos hbig, ← Proc.bind_block]
      exact .bind_onField_snd Grown.refl fun _ m₂ _ => forEach_unpackEntry hnot
    · simp only [if_neg hbig]
      exact .bind_onField_snd Grown.refl fun _ m₂ _ => forEach_unpackEntry hnot
  | _ => exact .pure Grown.refl () m₁

/-- `unpack` of an object one of whose pairs lacks its string. -/
theorem unpack_undefined {obj : Object}
    (hlacks : PairLacksString M throws w.objects.length (pairsOf obj)) :
    ∃ e, unpack M throws obj (w, m) = .undefined e := by
  cases obj with
  | map pairs =>
    refine Proc.bind_undefined_of_mapState (Proc.onField_snd_apply _ w m) (fun m' hclear => ?_)
      fun _ m₁ _ => ?_
    · rw [clear_eq] at hclear
      cases hclear
    · refine Proc.bind_undefined_of_mapState (Proc.onField_snd_apply _ w m₁) (fun m' => ?_)
        fun _ m₂ _ => forEach_unpackEntry_undefined hlacks
      split_ifs with hbig
      · rw [Proc.modify_bind, Proc.bind_apply]
        cases hmap : onMap (UnorderedMap.reserve · pairs.length)
          (if m₁.mapStorage.isNone then { m₁ with mapStorage := some UnorderedMap.empty }
            else m₁) with
        | returned r m₂ => simp
        | threw m₂ => exact absurd hmap (onMap_ne_threw _ _ _)
        | undefined e => simp
      · simp
  | _ => exact absurd hlacks (not_pairLacksString_nil _)

end Scoped

end HybridMessageMap

/-! ### The frame -/

namespace MessageFrame.Scoped

variable {μ : Type} [UnorderedMap μ ParameterKey ParameterValue] {M : Codec} {throws : ℕ → Bool}
  {w : World} {f : MessageFrame μ}

omit [UnorderedMap μ ParameterKey ParameterValue] in
theorem onParameters_accompanies {α : Type} {x : Proc (World × HybridMessageMap μ) α}
    {y : Proc (HybridMessageMap μ) α} (h : Proc.Accompanies Grown x y w f.parameters) :
    Proc.Accompanies Grown (onParameters x) (MessageFrame.onParameters y) w f := by
  obtain ⟨w', hw', hx⟩ := h
  refine ⟨w', hw', ?_⟩
  unfold onParameters MessageFrame.onParameters Proc.onField
  rw [hx]
  cases y f.parameters <;> rfl

/-- The header section of the buffer converts, and a pair of its parameter section lacks its
string. -/
def BufferLacksString (M : Codec) (throws : ℕ → Bool) (k : ℕ) (data : Option ByteString) : Prop :=
  ∃ headerObj parametersObj attachmentsObj,
    sections M data = some (headerObj, parametersObj, attachmentsObj) ∧
    MessageHeader.convertible M headerObj = true ∧
    HybridMessageMap.PairLacksString M throws k (HybridMessageMap.pairsOf parametersObj)

omit [UnorderedMap μ ParameterKey ParameterValue] in
/-- The sections of a buffer are the first three elements of its root. -/
private theorem exists_of_sections {data : Option ByteString}
    {headerObj parametersObj attachmentsObj : Object}
    (hs : sections M data = some (headerObj, parametersObj, attachmentsObj)) :
    ∃ bytes rest, data = some bytes ∧ bytes.length ≠ 0 ∧
      M.unpack bytes = some (.array (headerObj :: parametersObj :: attachmentsObj :: rest)) := by
  cases data with
  | none => cases hs
  | some bytes =>
    rw [sections] at hs
    split_ifs at hs with hne
    split at hs
    · rename_i hroot
      cases hs
      exact ⟨bytes, _, rfl, hne, hroot⟩
    · cases hs

omit [UnorderedMap μ ParameterKey ParameterValue] in
/-- The header section is got through exactly if it converts. -/
private theorem onHeader_returned_iff {headerObj : Object} :
    (∃ r f', onHeader (MessageHeader.unpack M headerObj) f = .returned r f') ↔
      MessageHeader.convertible M headerObj = true := by
  rw [onHeader, Proc.onField, MessageHeader.unpack_spec]
  cases MessageHeader.convertible M headerObj <;> simp

/-- The `try` block on a buffer with three sections. -/
private theorem deserializeBody_eq {bytes : ByteString} {headerObj parametersObj : Object}
    {attachmentsObj : Object} {rest : List Object} (hroot : M.unpack bytes =
      some (.array (headerObj :: parametersObj :: attachmentsObj :: rest))) :
    (deserializeBody M throws bytes : Proc (World × MessageFrame μ) Bool) = (do
      onMember (onHeader (MessageHeader.unpack M headerObj))
      onParameters (HybridMessageMap.Scoped.unpack M throws parametersObj)
      onMember (unpackAttachments M attachmentsObj)
      pure true) := by
  unfold deserializeBody
  rw [hroot]
  rfl

/-- What a buffer without three sections is answered. -/
private theorem deserializeBody_of_sections {bytes : ByteString} (hne : bytes.length ≠ 0)
    (hs : sections M (some bytes) = none) :
    Proc.Accompanies Grown (deserializeBody M throws bytes)
      (MessageFrame.deserializeBody M bytes) w f := by
  simp only [sections, if_neg hne] at hs
  unfold deserializeBody MessageFrame.deserializeBody
  cases hroot : M.unpack bytes with
  | none => exact ⟨w, .refl w, rfl⟩
  | some root =>
    cases root with
    | array elems =>
      rcases elems with _ | ⟨a, _ | ⟨b, _ | ⟨c, rest⟩⟩⟩
      · exact .pure Grown.refl false f
      · exact .pure Grown.refl false f
      · exact .pure Grown.refl false f
      · rw [hroot] at hs
        cases hs
    | _ => exact .pure Grown.refl false f

/-- The `try` block on a buffer in which no pair lacks its string. -/
private theorem deserializeBody_accompanies {bytes : ByteString} (hne : bytes.length ≠ 0)
    (hnot : ¬BufferLacksString M throws w.objects.length (some bytes)) :
    Proc.Accompanies Grown (deserializeBody M throws bytes)
      (MessageFrame.deserializeBody M bytes) w f := by
  cases hs : sections M (some bytes) with
  | none => exact deserializeBody_of_sections hne hs
  | some s =>
    obtain ⟨headerObj, parametersObj, attachmentsObj⟩ := s
    obtain ⟨_, rest, hbytes, -, hroot⟩ := exists_of_sections hs
    cases hbytes
    have hbody : (MessageFrame.deserializeBody M bytes : Proc (MessageFrame μ) Bool) = (do
        onHeader (MessageHeader.unpack M headerObj)
        MessageFrame.onParameters (HybridMessageMap.unpack M parametersObj)
        unpackAttachments M attachmentsObj
        pure true) := by
      unfold MessageFrame.deserializeBody
      rw [hroot]
      rfl
    rw [deserializeBody_eq hroot, hbody]
    refine .bind_onField_snd Grown.refl fun _ f₁ hheader => ?_
    have hconv : MessageHeader.convertible M headerObj = true :=
      onHeader_returned_iff.mp ⟨_, _, hheader⟩
    refine .bind (fun _ _ _ h h' => h.trans h') (onParameters_accompanies ?_)
      fun _ w' f₂ _ _ => ?_
    · exact HybridMessageMap.Scoped.unpack_accompanies fun h => hnot ⟨_, _, _, hs, hconv, h⟩
    · exact .bind_onField_snd Grown.refl fun _ f₃ _ => .pure Grown.refl true f₃

/-- **A buffer in which no pair lacks its string** is received as if the local values were not
there. -/
theorem deserialize_accompanies {data : Option ByteString}
    (hnot : ¬BufferLacksString M throws w.objects.length data) :
    Proc.Accompanies Grown (deserialize M throws data) (MessageFrame.deserialize M data) w f := by
  cases data with
  | none => exact .pure Grown.refl false f
  | some bytes =>
    by_cases hne : bytes.length = 0
    · rw [deserialize, MessageFrame.deserialize, if_pos hne, if_pos hne]
      exact .pure Grown.refl false f
    · rw [deserialize, MessageFrame.deserialize, if_neg hne, if_neg hne]
      exact .tryCatch_pure (deserializeBody_accompanies hne hnot) false

/-- **A buffer in which a pair lacks its string** has no defined reception. -/
theorem deserialize_undefined {data : Option ByteString}
    (hlacks : BufferLacksString M throws w.objects.length data) :
    ∃ e, deserialize M throws data (w, f) = .undefined e := by
  obtain ⟨headerObj, parametersObj, attachmentsObj, hs, hconv, hlacks⟩ := hlacks
  obtain ⟨bytes, rest, rfl, hne, hroot⟩ := exists_of_sections hs
  obtain ⟨r, f₁, hheader⟩ := (onHeader_returned_iff (f := f)).mpr hconv
  have honMember : onMember (onHeader (MessageHeader.unpack M headerObj)) (w, f) =
      .returned r (w, f₁) := Proc.onField_of_returned hheader
  obtain ⟨e, hunpack⟩ := HybridMessageMap.Scoped.unpack_undefined (m := f₁.parameters) hlacks
  have honParams : onParameters (HybridMessageMap.Scoped.unpack M throws parametersObj) (w, f₁) =
      .undefined e := by
    rw [onParameters, Proc.onField, hunpack]
  have hbody : deserializeBody M throws bytes (w, f) = .undefined e := by
    rw [deserializeBody_eq hroot, Proc.bind_of_returned honMember, Proc.bind_apply, honParams]
  exact ⟨e, by rw [deserialize, if_neg hne, Proc.tryCatch, hbody]⟩

/-- With ample memory, such a buffer would have been rejected without the local values. -/
theorem BufferLacksString.rejected {k : ℕ} {data : Option ByteString}
    (h : BufferLacksString M throws k data) (hmemory : ∀ i, throws i = false) :
    accepts M data = false := by
  obtain ⟨headerObj, parametersObj, attachmentsObj, hs, -, done, pair, rest, hpairs, -, -,
    tag, payload, more, hobj, htag, hlacks⟩ := h
  have hpayload : M.asStringView payload = none :=
    hlacks.resolve_right (by rw [hmemory]; exact Bool.false_ne_true)
  have hnone : HybridMessageMap.wireEntry M pair = none := by
    simp [HybridMessageMap.wireEntry, hobj, ParameterValue.unpack, htag, ValueType.ofRaw, hpayload]
  have hconv : HybridMessageMap.convertible M parametersObj = false := by
    simp [HybridMessageMap.convertible, hpairs, Proc.converts, hnone]
  rw [accepts, hs]
  simp [hconv]

end MessageFrame.Scoped

/-! ### Runs -/

namespace Beside

variable {σ α : Type}

theorem keeps_onObjects {x : Proc World α} (hx : Proc.Keeps Accounted x) :
    Proc.Keeps (fun s => Accounted s.1) (onObjects x : Proc (World × σ) α) := by
  intro s hs
  have h := hx s.1 hs
  unfold onObjects Proc.onField
  cases hxs : x s.1 <;> rw [hxs] at h <;> exact h

theorem keeps_onMember (x : Proc σ α) :
    Proc.Keeps (fun s : World × σ => Accounted s.1) (onMember x) := by
  intro s hs
  unfold onMember Proc.onField
  cases x s.2 with
  | returned a t => exact hs
  | threw t => exact hs
  | undefined e => trivial

theorem keeps_withLocal (val : ℕ) {block : Proc (World × σ) Unit}
    (hblock : Proc.Keeps (fun s => Accounted s.1) block) :
    Proc.Keeps (fun s => Accounted s.1) (withLocal val block) := by
  have hdestroy : Proc.Keeps (fun s : World × σ => Accounted s.1) (onObjects (destroy val)) :=
    keeps_onObjects ((keeps_reset val).bind fun _ => keeps_release val)
  exact (hblock.tryCatch (hdestroy.bind fun _ => .throw)).bind fun _ => hdestroy

end Beside

section Runs

variable {μ : Type} [UnorderedMap μ ParameterKey ParameterValue] {M : Codec} {throws : ℕ → Bool}

namespace HybridMessageMap.Scoped

theorem keeps_unpackEntry (pair : Object × Object) :
    Proc.Keeps (fun s : World × HybridMessageMap μ => Accounted s.1)
      (unpackEntry M throws pair) := by
  refine (Proc.Keeps.orThrow _).bind fun keyView => ?_
  refine (keeps_onObjects (keeps_construct _ fun i => keeps_store i _ _)).bind fun val => ?_
  refine keeps_withLocal val ?_
  refine (keeps_onObjects (keeps_unpack M val pair.2 _)).bind fun _ => ?_
  refine (keeps_onObjects (keeps_load val)).bind fun moved => ?_
  exact (keeps_onMember _).bind fun _ => keeps_onObjects (keeps_reset val)

theorem keeps_unpack (obj : Object) :
    Proc.Keeps (fun s : World × HybridMessageMap μ => Accounted s.1) (unpack M throws obj) := by
  refine (keeps_onMember _).bind fun _ => ?_
  cases obj with
  | map pairs => exact (keeps_onMember _).bind fun _ => .forEach pairs fun p => keeps_unpackEntry p
  | _ => exact .pure ()

end HybridMessageMap.Scoped

/-- The call is the reception of a buffer in which a pair lacks its string. -/
def FrameCall.LacksString (M : Codec) (throws : ℕ → Bool) (c : FrameCall)
    (s : World × MessageFrame μ) : Prop :=
  match c with
  | .deserialize data => MessageFrame.Scoped.BufferLacksString M throws s.1.objects.length data
  | _ => False

theorem MessageFrame.Scoped.keeps_deserialize (data : Option ByteString) :
    Proc.Keeps (fun s : World × MessageFrame μ => Accounted s.1) (deserialize M throws data) := by
  have honParams : ∀ obj, Proc.Keeps (fun s : World × MessageFrame μ => Accounted s.1)
      (onParameters (HybridMessageMap.Scoped.unpack M throws obj)) := by
    intro obj s hs
    have h : Proc.Leaves (fun s => Accounted s.1)
        (HybridMessageMap.Scoped.unpack M throws obj (s.1, s.2.parameters)) :=
      HybridMessageMap.Scoped.keeps_unpack obj _ hs
    unfold onParameters Proc.onField
    cases hx : HybridMessageMap.Scoped.unpack M throws obj (s.1, s.2.parameters) <;>
      rw [hx] at h <;> exact h
  have hbody : ∀ bytes, Proc.Keeps (fun s : World × MessageFrame μ => Accounted s.1)
      (deserializeBody M throws bytes) := by
    intro bytes
    refine (Proc.Keeps.orThrow _).bind fun root => ?_
    cases root with
    | array elems =>
      dsimp only
      split_ifs
      · exact .pure false
      · exact (Proc.Keeps.eval _).bind fun _ => (keeps_onMember _).bind fun _ =>
          (Proc.Keeps.eval _).bind fun obj => (honParams obj).bind fun _ =>
            (Proc.Keeps.eval _).bind fun _ => (keeps_onMember _).bind fun _ => .pure true
    | _ => exact .pure false
  cases data with
  | none => exact .pure false
  | some bytes =>
    rw [deserialize]
    split_ifs
    · exact .pure false
    · exact (hbody bytes).tryCatch (.pure false)

/-- **No string of a local value is lost or destroyed twice** by a call. -/
theorem FrameCall.keeps_execScoped (c : FrameCall) :
    Proc.Keeps (fun s : World × MessageFrame μ => Accounted s.1) (c.execScoped M throws) := by
  cases c with
  | deserialize data =>
    exact (MessageFrame.Scoped.keeps_deserialize data).bind fun _ => .pure _
  | _ => exact keeps_onMember (FrameCall.exec M _)

/-- **One call**, with the objects of the program or without them. -/
theorem FrameCall.execScoped_accompanies {c : FrameCall} {w : World} {f : MessageFrame μ}
    (hnot : ¬c.LacksString M throws (w, f)) :
    Proc.Accompanies Grown (c.execScoped M throws) (c.exec M) w f := by
  cases c with
  | deserialize data =>
    exact (MessageFrame.Scoped.deserialize_accompanies hnot).bind (fun _ _ _ h h' => h.trans h')
      fun b _ f' _ _ => .pure Grown.refl (Reply.bool b) f'
  | parameters call => exact .onField_snd Grown.refl (FrameCall.exec M (.parameters call)) f
  | header setter => exact .onField_snd Grown.refl (FrameCall.exec M (.header setter)) f
  | addAttachment name data =>
    exact .onField_snd Grown.refl (FrameCall.exec M (.addAttachment name data)) f
  | clear => exact .onField_snd Grown.refl (FrameCall.exec M .clear) f

theorem FrameCall.execScoped_undefined {c : FrameCall} {w : World} {f : MessageFrame μ}
    (hlacks : c.LacksString M throws (w, f)) :
    ∃ e, c.execScoped M throws (w, f) = .undefined e := by
  cases c with
  | deserialize data =>
    obtain ⟨e, he⟩ := MessageFrame.Scoped.deserialize_undefined (f := f) hlacks
    exact ⟨e, by rw [FrameCall.execScoped, Proc.bind_apply, he]⟩
  | _ => exact hlacks.elim

/-- No object is there, and every string that has been constructed has been destroyed once. -/
structure Settled (w : World) : Prop where
  objects : ∀ o ∈ w.objects, o = none
  accounted : Accounted w

theorem Settled.grown {w w' : World} (h : Settled w) (hw' : Grown w w') (hacc : Accounted w') :
    Settled w' := by
  refine ⟨fun o ho => ?_, hacc⟩
  obtain ⟨n, hn⟩ := hw'
  rw [hn, List.mem_append] at ho
  exact ho.elim (h.objects o) List.eq_of_mem_replicate

/-- What returns without the local values returns with them, and leaves no object behind. -/
theorem Settled.accompanies {σ α : Type} {x : Proc (World × σ) α} {y : Proc σ α} {w : World}
    {s s' : σ} {a : α} (h : Settled w) (hx : Proc.Accompanies Grown x y w s)
    (hkeeps : Proc.Keeps (fun s => Accounted s.1) x) (hy : y s = .returned a s') :
    ∃ w', x (w, s) = .returned a (w', s') ∧ Settled w' := by
  obtain ⟨w', hgrown, hexec⟩ := hx
  rw [hy] at hexec
  have hacc : Proc.Leaves (fun s => Accounted s.1) (x (w, s)) := hkeeps _ h.accounted
  rw [hexec] at hacc
  exact ⟨w', hexec, h.grown hgrown hacc⟩

/-- A call that is no reception of a lacking buffer goes as it goes without the local values. -/
theorem Settled.execScoped {c : FrameCall} {w : World} {f f' : MessageFrame μ} {r : Reply}
    (h : Settled w) (hnot : ¬c.LacksString M throws (w, f)) (hexec : c.exec M f = .returned r f') :
    ∃ w', c.execScoped M throws (w, f) = .returned r (w', f') ∧ Settled w' :=
  h.accompanies (FrameCall.execScoped_accompanies hnot) c.keeps_execScoped hexec

theorem Settled.empty : Settled {} := ⟨fun o ho => (by cases ho), .refl _⟩

theorem Settled.stringsSound {w : World} (h : Settled w) : StringsSound w :=
  MsgFrame.stringsSound (fun o ho => by cases h.objects _ ho) h.accounted

variable [LawfulUnorderedMap μ] (M) (throws)

/-- **When receiving is safe.** Let a frame go through any calls, receptions of arbitrary buffers
among them, while any constructions of strings in the decoder run out of memory. The run has no
undefined behaviour exactly if no pair of a buffer that it receives lacks its string: has, under a
key and behind pairs and a header that convert, the tag of a string over something that is none, or
over a string for which memory does not suffice. Then the frame goes through what it goes through
without the local values, and each of their strings has been destroyed exactly once. -/
theorem MessageFrame.reception_defined_iff (header : MessageHeader) (config : FrameConfig)
    (calls : List FrameCall) :
    ((∃ p, Proc.execAll (FrameCall.execScoped M throws) calls
        ({}, (construct header config : MessageFrame μ)) = .ok p) ↔
      Proc.Along (FrameCall.execScoped M throws) (fun c s => ¬c.LacksString M throws s) calls
        ({}, (construct header config : MessageFrame μ))) ∧
    ∀ (rs : List (Option Reply)) (w : World) (f : MessageFrame μ),
      Proc.execAll (FrameCall.execScoped M throws) calls ({}, construct header config) =
        .ok (rs, w, f) →
      Proc.execAll (FrameCall.exec M) calls (construct header config) = .ok (rs, f) ∧
        (∀ o ∈ w.objects, o = none) ∧ StringsSound w := by
  have hstep : ∀ (c : FrameCall) (s : World × MessageFrame μ) (f : MessageFrame μ),
      (Settled s.1 ∧ s.2 = f ∧ f.parameters.Inv) → ¬c.LacksString M throws s →
      ∃ r s' f', Proc.Ends (c.execScoped M throws) s r s' ∧ Proc.Ends (c.exec M) f r f' ∧
        Settled s'.1 ∧ s'.2 = f' ∧ f'.parameters.Inv := by
    rintro c ⟨w, f⟩ _ ⟨hsettled, rfl, hinv⟩ hnot
    obtain ⟨r, f', hexec, heff⟩ := c.exec_spec M hinv
    obtain ⟨w', hscoped, hsettled'⟩ := hsettled.execScoped hnot hexec
    exact ⟨some r, (w', f'), f', hscoped, hexec, hsettled', rfl, heff.inv hinv⟩
  have hundefined : ∀ (c : FrameCall) (s : World × MessageFrame μ) (f : MessageFrame μ),
      (Settled s.1 ∧ s.2 = f ∧ f.parameters.Inv) → ¬¬c.LacksString M throws s →
      ∃ e, c.execScoped M throws s = .undefined e :=
    fun c s f _ hlacks => FrameCall.execScoped_undefined (not_not.mp hlacks)
  obtain ⟨hiff, hdo⟩ := Proc.execAll_agrees_iff hstep hundefined calls
    (s := ({}, construct header config)) (t := construct header config)
    ⟨.empty, rfl, HybridMessageMap.ofConfig_inv config⟩
  refine ⟨hiff, fun rs w f hall => ?_⟩
  obtain ⟨_, hplain, hsettled, rfl, -⟩ := hdo rs (w, f) hall
  exact ⟨hplain, hsettled.objects, hsettled.stringsSound⟩

/-- A frame receives `[nil, {"a": [30, nil]}, []]`: nine bytes, and the destructor of the local
value is undefined. -/
theorem MessageFrame.reception_defined_iff_nine_bytes :
    ¬∃ p, Proc.execAll (FrameCall.execScoped Wire.codec fun _ => false)
      [.deserialize (some [0x93, 0xc0, 0x81, 0xa1, 97, 0x92, 30, 0xc0, 0x90])]
      ({}, (construct { timestamp := 9 } {} :
        MessageFrame (ListMap ParameterKey ParameterValue))) = .ok p := by
  intro hdefined
  have halong := (MessageFrame.reception_defined_iff Wire.codec (fun _ => false)
    { timestamp := 9 } {} _).1.mp hdefined
  refine halong.1 ⟨_, _, _, rfl, by decide, [], _, [], rfl, ?_, by decide, ?_⟩
  · rintro p (_ | _)
  · exact ⟨_, _, _, rfl, by decide, .inl (by decide)⟩

end Runs

end MsgFrame
