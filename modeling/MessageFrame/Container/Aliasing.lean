import MessageFrame.Container.Endings
import MessageFrame.Model.Aliasing

/-!
# Copying from entry to entry

A client may pass to a call what `find` returned, a reference to an entry of the same container.
The reference is good as long as the entry is where it was, and the only step that moves entries
in the middle of a call is a conversion: it empties the vector before the argument is read.

So copies have undefined behaviour exactly if their source is missing or they convert the container
(`copies_defined_iff`). All others read the value of the source, in particular those that overwrite
the source with itself, and those that insert into a vector or a map that is about to grow.
-/

namespace MsgFrame

open Msgpack AssocList

variable {μ : Type} [UnorderedMap μ ParameterKey ParameterValue]

namespace HybridMessageMap.Aliased

variable {m : HybridMessageMap μ} {val : EntryRef} {v : ParameterValue}

theorem readArg_of_some (h : m.valueAt val = some v) : readArg val m = .returned v m := by
  unfold readArg
  rw [Proc.get_bind, h]
  rfl

theorem readArg_of_none (h : m.valueAt val = none) : readArg val m = .undefined .notAlive := by
  unfold readArg
  rw [Proc.get_bind, h]
  rfl

/-! ### Pair forms -/

theorem add_eq_addFlat (device param : ByteString) (val : EntryRef) :
    (add device param val : Proc (HybridMessageMap μ) Unit) =
      addFlat (.compose device param) val := by
  unfold add addFlat mapEmplaceLvalue
  rw [ParameterKey.ofParts_eq, FlatKey.view_compose]

theorem set_eq_setFlat (device param : ByteString) (val : EntryRef) :
    (set device param val : Proc (HybridMessageMap μ) Unit) =
      setFlat (.compose device param) val := by
  unfold set setFlat
  simp only [findForWrite_eq_findRef, findRef_compose, add_eq_addFlat]

theorem update_eq_updateFlat (device param : ByteString) (val : EntryRef) :
    (update device param val : Proc (HybridMessageMap μ) Bool) =
      updateFlat (.compose device param) val := by
  unfold update updateFlat
  simp only [findForWrite_eq_findRef, findRef_compose]

/-! ### Flat forms -/

/-- An insertion that does not convert reads its argument in time. -/
theorem addFlat_of_room (hread : m.valueAt val = some v)
    (hroom : ¬(m.isVectorMode = true ∧ smallCapacity ≤ m.vectorStorage.length))
    (flatKey : FlatKey) :
    addFlat flatKey val m = HybridMessageMap.addFlat flatKey (.lvalue v) m := by
  unfold addFlat HybridMessageMap.addFlat
  rw [Proc.get_bind, Proc.get_bind]
  by_cases hmode : m.isVectorMode = true
  · have hfull : ¬smallCapacity ≤ m.vectorStorage.length := fun hfull => hroom ⟨hmode, hfull⟩
    rw [if_pos hmode, if_neg hfull, if_pos hmode, if_neg hfull,
      Proc.bind_of_returned (readArg_of_some hread)]
    rfl
  · rw [if_neg hmode, if_neg hmode, Proc.bind_of_returned (readArg_of_some hread)]
    rfl

/-- An insertion that converts reads its argument too late. -/
theorem addFlat_of_full (hmode : m.isVectorMode = true)
    (hfull : smallCapacity ≤ m.vectorStorage.length) (i : ℕ) (flatKey : FlatKey) :
    addFlat flatKey (.vector i) m = .undefined .notAlive := by
  have hconv := convertToMap_eq m.isVectorMode m.vectorStorage m.cfg m.mapStorage
  unfold addFlat
  rw [Proc.get_bind, if_pos hmode, if_pos hfull, Proc.bind_of_returned hconv, Proc.bind_apply,
    readArg_of_none rfl]

theorem setFlat_of_found {flatKey : FlatKey} {ref : EntryRef}
    (hfound : m.findFlatRef flatKey = .ok (some ref)) (hread : m.valueAt val = some v) :
    setFlat flatKey val m = HybridMessageMap.setFlat flatKey (.lvalue v) m := by
  unfold setFlat HybridMessageMap.setFlat
  rw [Proc.get_bind, Proc.get_bind, hfound, Proc.eval_ok_bind, Proc.eval_ok_bind]
  exact Proc.bind_of_returned (readArg_of_some hread) _

variable (val v) in
/-- A key that is missing is inserted. -/
theorem setFlat_of_missing {flatKey : FlatKey} (hmissing : m.findFlatRef flatKey = .ok none) :
    setFlat flatKey val m = addFlat flatKey val m ∧
      HybridMessageMap.setFlat flatKey (.lvalue v) m =
        HybridMessageMap.addFlat flatKey (.lvalue v) m := by
  unfold setFlat HybridMessageMap.setFlat
  rw [Proc.get_bind, Proc.get_bind, hmissing, Proc.eval_ok_bind, Proc.eval_ok_bind]
  exact ⟨rfl, rfl⟩

/-- A replacement never inserts. -/
theorem updateFlat_eq {flatKey : FlatKey} {found : Option EntryRef}
    (hfound : m.findFlatRef flatKey = .ok found) (hread : m.valueAt val = some v) :
    updateFlat flatKey val m = HybridMessageMap.updateFlat flatKey (.lvalue v) m := by
  unfold updateFlat HybridMessageMap.updateFlat
  rw [Proc.get_bind, Proc.get_bind, hfound, Proc.eval_ok_bind, Proc.eval_ok_bind]
  cases found with
  | some ref => exact Proc.bind_of_returned (readArg_of_some hread) _
  | none => rfl

end HybridMessageMap.Aliased

/-! ### Calls -/

/-- The call in flat form. -/
def CopyTarget.normal : CopyTarget → CopyTarget
  | .add device param => .addFlat (.compose device param)
  | .addFlat flatKey => .addFlat flatKey
  | .set device param => .setFlat (.compose device param)
  | .setFlat flatKey => .setFlat flatKey
  | .update device param => .updateFlat (.compose device param)
  | .updateFlat flatKey => .updateFlat flatKey

/-- The call in flat form does the same, in every state and with any reference. -/
theorem CopyTarget.normal_exec (val : EntryRef) (target : CopyTarget) :
    (target.normal.exec val : Proc (HybridMessageMap μ) Reply) = target.exec val := by
  cases target with
  | add device param =>
    simp only [CopyTarget.normal, CopyTarget.exec, HybridMessageMap.Aliased.add_eq_addFlat]
  | set device param =>
    simp only [CopyTarget.normal, CopyTarget.exec, HybridMessageMap.Aliased.set_eq_setFlat]
  | update device param =>
    simp only [CopyTarget.normal, CopyTarget.exec, HybridMessageMap.Aliased.update_eq_updateFlat]
  | addFlat flatKey | setFlat flatKey | updateFlat flatKey => rfl

theorem CopyTarget.normal_call (v : ParameterValue) (target : CopyTarget) :
    target.normal.call v = (target.call v).normal := by
  cases target <;> rfl

/-- The call converts the container, whatever the value. -/
def CopyTarget.Converts (target : CopyTarget) (m : HybridMessageMap μ) : Prop :=
  ∃ v, (target.call v).Converts m

/-- Whether a call converts depends on its key alone. -/
theorem CopyTarget.converts_iff (target : CopyTarget) (v : ParameterValue)
    (m : HybridMessageMap μ) : target.Converts m ↔ (target.call v).Converts m := by
  refine ⟨fun ⟨w, hmode, hfull, key, val, hop⟩ => ⟨hmode, hfull, key, v, ?_⟩, fun h => ⟨v, h⟩⟩
  cases target with
  | add _ _ | addFlat _ =>
    refine .inl ?_
    rcases hop with hop | ⟨hop, -⟩
    · cases hop
      rfl
    · cases hop
  | set _ _ | setFlat _ =>
    refine .inr ?_
    rcases hop with hop | ⟨hop, hnot⟩
    · cases hop
    · cases hop
      exact ⟨rfl, hnot⟩
  | update _ _ | updateFlat _ => rcases hop with hop | ⟨hop, -⟩ <;> cases hop

theorem CopyTarget.converts_normal (target : CopyTarget) (m : HybridMessageMap μ) :
    target.normal.Converts m ↔ target.Converts m := by
  rw [target.normal.converts_iff .unknown, target.converts_iff .unknown, target.normal_call,
    MapCall.Converts, MapCall.Converts, MapCall.Appends, MapCall.Appends, MapCall.normal_op]

theorem CopyTarget.normal_cases (target : CopyTarget) :
    (∃ flatKey, target.normal = .addFlat flatKey) ∨ (∃ flatKey, target.normal = .setFlat flatKey) ∨
      ∃ flatKey, target.normal = .updateFlat flatKey := by
  cases target with
  | add _ _ | addFlat _ => exact .inl ⟨_, rfl⟩
  | set _ _ | setFlat _ => exact .inr (.inl ⟨_, rfl⟩)
  | update _ _ | updateFlat _ => exact .inr (.inr ⟨_, rfl⟩)

variable [LawfulUnorderedMap μ] {m : HybridMessageMap μ} {val : EntryRef}

/-- **A reference is read in time**, and the call does what it does with a value of its own. -/
theorem CopyTarget.exec_of_kept (h : m.Inv) {v : ParameterValue} (hread : m.valueAt val = some v)
    {target : CopyTarget} (hkept : ¬target.Converts m) :
    target.exec val m = (target.call v).exec m := by
  have hroom : ∀ {flatKey : FlatKey}, target.normal = .addFlat flatKey ∨
      (target.normal = .setFlat flatKey ∧ ⟨flatKey.view⟩ ∉ keys m.entries) →
      ¬(m.isVectorMode = true ∧ smallCapacity ≤ m.vectorStorage.length) := by
    rintro flatKey hnormal ⟨hmode, hfull⟩
    rw [← target.converts_normal] at hkept
    rcases hnormal with hnormal | ⟨hnormal, hnot⟩
    · rw [hnormal] at hkept
      exact hkept ⟨v, hmode, hfull, _, _, .inl rfl⟩
    · rw [hnormal] at hkept
      exact hkept ⟨v, hmode, hfull, _, _, .inr ⟨rfl, hnot⟩⟩
  rw [← target.normal_exec, ← (target.call v).normal_exec, ← target.normal_call]
  obtain ⟨flatKey, hnormal⟩ | ⟨flatKey, hnormal⟩ | ⟨flatKey, hnormal⟩ := target.normal_cases
  · have hadd := HybridMessageMap.Aliased.addFlat_of_room hread (hroom (.inl hnormal)) flatKey
    rw [hnormal, CopyTarget.exec, CopyTarget.call, MapCall.exec, Proc.bind_apply, Proc.bind_apply,
      hadd]
  · have hset : HybridMessageMap.Aliased.setFlat flatKey val m =
        HybridMessageMap.setFlat flatKey (.lvalue v) m := by
      have hfound : m.findFlatRef flatKey = .ok (m.locate ⟨flatKey.view⟩) :=
        HybridMessageMap.findViewRef_eq h flatKey.view
      cases hlocate : m.locate ⟨flatKey.view⟩ with
      | some ref =>
        exact HybridMessageMap.Aliased.setFlat_of_found (hlocate ▸ hfound) hread
      | none =>
        have hnot := (HybridMessageMap.locate_eq_none h).mp hlocate
        obtain ⟨hthis, hbase⟩ := HybridMessageMap.Aliased.setFlat_of_missing val v
          (hlocate ▸ hfound)
        rw [hthis, hbase]
        exact HybridMessageMap.Aliased.addFlat_of_room hread (hroom (.inr ⟨hnormal, hnot⟩)) flatKey
    rw [hnormal, CopyTarget.exec, CopyTarget.call, MapCall.exec, Proc.bind_apply, Proc.bind_apply,
      hset]
  · have hupdate := HybridMessageMap.Aliased.updateFlat_eq
      (HybridMessageMap.findViewRef_eq h flatKey.view) hread
    rw [hnormal, CopyTarget.exec, CopyTarget.call, MapCall.exec, Proc.bind_apply, Proc.bind_apply,
      hupdate]

/-- **A reference is read too late** by a call that converts the container. -/
theorem CopyTarget.exec_of_converts (h : m.Inv) (i : ℕ) {target : CopyTarget}
    (hconv : target.Converts m) : target.exec (.vector i) m = .undefined .notAlive := by
  rw [← target.converts_normal] at hconv
  rw [← target.normal_exec]
  obtain ⟨flatKey, hnormal⟩ | ⟨flatKey, hnormal⟩ | ⟨flatKey, hnormal⟩ := target.normal_cases
  · rw [hnormal] at hconv ⊢
    obtain ⟨v, hmode, hfull, -⟩ := hconv
    rw [CopyTarget.exec, Proc.bind_apply,
      HybridMessageMap.Aliased.addFlat_of_full hmode hfull i flatKey]
  · rw [hnormal] at hconv ⊢
    obtain ⟨v, hmode, hfull, key, w, hop | ⟨hop, hnot⟩⟩ := hconv
    · cases hop
    · cases hop
      have hmissing : m.findFlatRef flatKey = .ok none := by
        rw [HybridMessageMap.findFlatRef, HybridMessageMap.findViewRef_eq h,
          (HybridMessageMap.locate_eq_none h).mpr hnot]
      rw [CopyTarget.exec, Proc.bind_apply,
        (HybridMessageMap.Aliased.setFlat_of_missing _ v hmissing).1,
        HybridMessageMap.Aliased.addFlat_of_full hmode hfull i flatKey]
  · rw [hnormal] at hconv
    obtain ⟨v, -, -, key, w, hop | ⟨hop, -⟩⟩ := hconv <;> cases hop

/-! ### Programs -/

/-- The abstract machine: a copy performs the call with the value of the source. -/
def CopyingCall.step : CopyingCall → PartialMap ByteString ParameterValue →
    Reply × PartialMap ByteString ParameterValue
  | .api call, f => call.step f
  | .copy target source, f =>
    match f source.view with
    | some v => (target.call v).step f
    | none => (.void, f)

/-- A copy finds its source and does not convert the container. -/
def CopyingCall.Sound : CopyingCall → HybridMessageMap μ → Prop
  | .api _, _ => True
  | .copy target source, m => (∃ v, m.findFlat source = .ok (some v)) ∧ ¬target.Converts m

namespace HybridMessageMap

omit [LawfulUnorderedMap μ] in
/-- What the caller of a search holds, and what is behind it. -/
private theorem copy_exec (h : m.Inv) (target : CopyTarget) (source : FlatKey) :
    (CopyingCall.copy target source).exec m =
      match m.locate ⟨source.view⟩ with
      | some val => target.exec val m
      | none => .undefined .nullDereference := by
  have hfound : m.findFlatRef source = .ok (m.locate ⟨source.view⟩) :=
    findViewRef_eq h source.view
  rw [CopyingCall.exec, Proc.get_bind, hfound, Proc.eval_ok_bind]
  cases m.locate ⟨source.view⟩ <;> rfl

private theorem findFlat_locate (h : m.Inv) (source : FlatKey) :
    m.findFlat source = .ok ((m.locate ⟨source.view⟩).bind m.valueAt) := by
  rw [findFlat_eq h, valueAt_locate h]

/-- A sound call simulates one step of the abstract machine. -/
theorem Refines.copying_exec {f : PartialMap ByteString ParameterValue} (h : Refines m f)
    {c : CopyingCall} (hsound : c.Sound m) :
    ∃ m', c.exec m = .returned (c.step f).1 m' ∧ Refines m' (c.step f).2 := by
  cases c with
  | api call => exact h.exec call
  | copy target source =>
    obtain ⟨⟨v, hv⟩, hkept⟩ := hsound
    have hlookup : f source.view = some v := by
      rw [findFlat_eq h.inv, h.lookup] at hv
      exact Except.ok.inj hv
    rw [findFlat_locate h.inv] at hv
    obtain ⟨val, hlocate, hread⟩ := Option.bind_eq_some_iff.mp (Except.ok.inj hv)
    have hstep : (CopyingCall.copy target source).step f = (target.call v).step f := by
      simp only [CopyingCall.step, hlookup]
    rw [hstep, copy_exec h.inv, hlocate]
    simp only [target.exec_of_kept h.inv hread hkept]
    exact h.exec (target.call v)

/-- A call that is not sound has undefined behaviour. -/
theorem Inv.copying_exec (h : m.Inv) {c : CopyingCall} (hsound : ¬c.Sound m) :
    ∃ e, c.exec m = .undefined e := by
  cases c with
  | api call => exact absurd trivial hsound
  | copy target source =>
    rw [copy_exec h]
    cases hlocate : m.locate ⟨source.view⟩ with
    | none => exact ⟨_, rfl⟩
    | some val =>
      have hmem := isSome_lookup.mpr (mem_keys_of_locate h hlocate)
      obtain ⟨v, hv⟩ := Option.isSome_iff_exists.mp hmem
      -- the source is there, so it is the conversion that is unsound
      have hconv : target.Converts m := by
        by_contra hkept
        exact hsound ⟨⟨v, by rw [findFlat_eq h, hv]⟩, hkept⟩
      obtain ⟨i, rfl⟩ : ∃ i, val = .vector i := by
        obtain ⟨-, hmode, -⟩ := hconv
        rw [locate, if_pos hmode] at hlocate
        obtain ⟨i, -, hi⟩ := Option.map_eq_some_iff.mp hlocate
        exact ⟨i, hi.symm⟩
      exact ⟨_, target.exec_of_converts h i hconv⟩

/-- **Exactly which copies are sound.** A program of calls and of copies from entry to entry runs
on a fresh container without undefined behaviour exactly if every copy finds its source and none
converts the container. Then its replies, and all lookups afterwards, are those of the finite map in
which a copy stores the value of its source. -/
theorem copies_defined_iff (config : FrameConfig) (calls : List CopyingCall) :
    ∃ m₀ : HybridMessageMap μ, construct config = .returned () m₀ ∧
      ((∃ p, Proc.execAll CopyingCall.exec calls m₀ = .ok p) ↔
        Proc.Along CopyingCall.exec CopyingCall.Sound calls m₀) ∧
      ∀ rs m, Proc.execAll CopyingCall.exec calls m₀ = .ok (rs, m) →
        rs = (Proc.runMachine CopyingCall.step calls PartialMap.empty).1.map some ∧
        ∀ flatKey : FlatKey, m.findFlat flatKey =
          .ok ((Proc.runMachine CopyingCall.step calls PartialMap.empty).2 flatKey.view) := by
  have hdefined : ∀ (c : CopyingCall) (m : HybridMessageMap μ) f, Refines m f → c.Sound m →
      ∃ m', c.exec m = .returned (c.step f).1 m' ∧ Refines m' (c.step f).2 :=
    fun c m f h hsound => h.copying_exec hsound
  have hundefined : ∀ (c : CopyingCall) (m : HybridMessageMap μ) f, Refines m f → ¬c.Sound m →
      ∃ e, c.exec m = .undefined e := fun c m f h hsound => h.inv.copying_exec hsound
  have h₀ : Refines (ofConfig config : HybridMessageMap μ) PartialMap.empty := .ofConfig config
  obtain ⟨hiff, hdo⟩ := Proc.execAll_defined_iff hdefined hundefined calls h₀
  refine ⟨_, construct_eq config, hiff, fun rs m h => ?_⟩
  obtain ⟨hrs, href⟩ := hdo rs m h
  exact ⟨hrs, fun flatKey => by rw [findFlat_eq href.inv, href.lookup]⟩

/-- An entry is copied to a new key and then to itself. -/
theorem copies_defined_iff_itself :
    ∃ p, Proc.execAll CopyingCall.exec [.api (.add [97] [98] (.lvalue (.int64 1))),
        .copy (.set [99] [100]) (.compose [97] [98]), .copy (.set [97] [98]) (.compose [97] [98])]
      (ofConfig {} : HybridMessageMap (ListMap ParameterKey ParameterValue)) = .ok p := by
  obtain ⟨m₀, hcons, hiff, -⟩ := copies_defined_iff (μ := ListMap ParameterKey ParameterValue) {}
    [.api (.add [97] [98] (.lvalue (.int64 1))), .copy (.set [99] [100]) (.compose [97] [98]),
      .copy (.set [97] [98]) (.compose [97] [98])]
  obtain ⟨-, rfl⟩ := Outcome.returned.inj ((construct_eq {}).symm.trans hcons)
  refine hiff.mpr (.cons trivial (.inl ⟨_, rfl⟩) (.cons ⟨⟨.int64 1, rfl⟩, ?_⟩ (.inl ⟨_, rfl⟩)
    (.cons ⟨⟨.int64 1, rfl⟩, ?_⟩ (.inl ⟨_, rfl⟩) trivial)))
  · exact fun ⟨_, hconv⟩ => absurd hconv.2.1 (by decide)
  · exact fun ⟨_, hconv⟩ => absurd hconv.2.1 (by decide)

end HybridMessageMap

end MsgFrame
