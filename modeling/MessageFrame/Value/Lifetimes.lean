import MessageFrame.MessagePack.WireLawful
import MessageFrame.Value.Operations

/-!
# The lifetimes of the strings in parameter values

`StringsSound` is the invariant of the tagged union over all objects of a program: a tag says
`String` exactly if the bytes hold a live string, and no string is lost or destroyed twice. That
strings are accounted for is kept by every single access, whatever the tags say (`exec_keeps`);
so only the tags need care.

`FulfilsTag` is the condition under which an operation does not leave a living object with the
tag of a string that has not been constructed. `strings_sound_iff` shows that the invariant
holds throughout a run exactly if each operation satisfies it.
-/

namespace MsgFrame

open Msgpack ValueObject

/-! ### Every string is accounted for -/

/-- Every string that has been constructed lives in one object, or has been destroyed once. -/
def Accounted (w : World) : Prop := Ledger.Balanced w.live w.destroyed w.constructed

/-- Replacing an object by one that holds the same string. -/
theorem Accounted.put {w : World} {i : ℕ} {o : ValueObject} {c : Option ValueObject}
    (hw : Accounted w) (h : w.objects[i]? = some (some o)) (hc : World.owns c = o.value.owns) :
    Accounted (w.put i c) :=
  Ledger.Balanced.congr hw (Ledger.held_set_perm_of_eq World.owns h hc)

namespace ValueObject

variable {i : ℕ}

theorem read_cases (i : ℕ) (w : World) :
    (∃ o, w.objects[i]? = some (some o) ∧ read i w = .returned o w) ∨
      read i w = .undefined .notAlive := by
  rcases h : w.objects[i]? with _ | _ | o
  · exact .inr (by simp [read, h])
  · exact .inr (by simp [read, h])
  · exact .inl ⟨o, rfl, read_apply h⟩

/-- An access that reads the object first. -/
theorem read_keeps {α : Type} {f : ValueObject → Proc World α}
    (hf : ∀ o w, w.objects[i]? = some (some o) → Accounted w →
      Proc.Leaves Accounted (f o w)) : Proc.Keeps Accounted (read i >>= f) := by
  intro w hw
  rcases read_cases i w with ⟨o, h, hread⟩ | hread
  · rw [Proc.bind_of_returned hread]
    exact hf o w h hw
  · rw [Proc.bind_apply, hread]
    trivial

theorem keeps_read (i : ℕ) : Proc.Keeps Accounted (read i) := by
  intro w hw
  rcases read_cases i w with ⟨o, -, hread⟩ | hread
  · rw [hread]
    exact hw
  · rw [hread]
    trivial

theorem keeps_setType (i : ℕ) (t : ValueType) : Proc.Keeps Accounted (setType i t) :=
  read_keeps fun _ _ h hw => hw.put h rfl

theorem keeps_setScalar (i : ℕ) (bits : UInt64) : Proc.Keeps Accounted (setScalar i bits) := by
  refine read_keeps fun o w h hw => ?_
  cases hval : o.value with
  | stringBuffer id s => trivial
  | raw | scalar => exact hw.put h (by rw [hval]; rfl)

theorem keeps_scalar (i : ℕ) : Proc.Keeps Accounted (scalar i) := by
  refine read_keeps fun o w h hw => ?_
  cases o.value with
  | scalar bits => exact hw
  | raw | stringBuffer => trivial

theorem keeps_asString (i : ℕ) : Proc.Keeps Accounted (asString i) := by
  refine read_keeps fun o w h hw => ?_
  cases o.value with
  | stringBuffer id s => exact hw
  | raw | scalar => trivial

theorem keeps_assignString (i : ℕ) (s : ByteString) (throws : Bool) :
    Proc.Keeps Accounted (assignString i s throws) := by
  refine read_keeps fun o w h hw => ?_
  cases hval : o.value with
  | stringBuffer id s' =>
    cases throws with
    | true => exact hw
    | false => exact hw.put h (by rw [hval]; rfl)
  | raw | scalar => trivial

theorem keeps_release (i : ℕ) : Proc.Keeps Accounted (release i) := by
  refine read_keeps fun o w h hw => ?_
  cases hval : o.value with
  | stringBuffer id s => trivial
  | raw | scalar => exact hw.put h (by rw [hval]; rfl)

/-- A new string is held where it has been constructed. -/
theorem keeps_newString (i : ℕ) (s : ByteString) (throws : Bool) :
    Proc.Keeps Accounted (newString i s throws) := by
  refine read_keeps fun o w h hw => ?_
  cases throws with
  | true => exact hw
  | false =>
    cases hval : o.value with
    | stringBuffer id s => trivial
    | raw | scalar =>
      have hheld := Ledger.held_set_perm World.owns h
        (some { o with value := .stringBuffer w.constructed s })
      have howns : World.owns (some o) = [] := by rw [World.owns, Option.elim_some, hval]; rfl
      rw [howns, List.nil_append] at hheld
      exact Ledger.Balanced.congr (Ledger.Balanced.acquire hw) hheld

/-- A string that is destroyed is no longer held. -/
theorem keeps_destroyString (i : ℕ) : Proc.Keeps Accounted (destroyString i) := by
  refine read_keeps fun o w h hw => ?_
  cases hval : o.value with
  | stringBuffer id s =>
    have hheld := Ledger.held_set_perm World.owns h (some { o with value := .raw })
    have howns : World.owns (some o) = [id] := by rw [World.owns, Option.elim_some, hval]; rfl
    rw [howns] at hheld
    exact Ledger.Balanced.release (Ledger.Balanced.congr hw hheld)
  | raw | scalar => trivial

theorem keeps_load (i : ℕ) : Proc.Keeps Accounted (load i) := by
  refine (keeps_read i).bind fun o => ?_
  cases o.type with
  | int64 | double | bool => exact (keeps_scalar i).bind fun _ => .pure _
  | string => exact (keeps_asString i).bind fun _ => .pure _
  | unknown => exact .pure _

theorem keeps_store (i : ℕ) (v : ParameterValue) (throws : Bool) :
    Proc.Keeps Accounted (store i v throws) := by
  cases v with
  | int64 | double | bool | unknown => exact keeps_setScalar i _
  | string s => exact keeps_newString i s throws

theorem keeps_copyPayload (i other : ℕ) (throws : Bool) :
    Proc.Keeps Accounted (copyPayload i other throws) :=
  (keeps_load other).bind fun v => keeps_store i v throws

theorem keeps_reset (i : ℕ) : Proc.Keeps Accounted (reset i) := by
  have hrest : Proc.Keeps Accounted (setType i .unknown >>= fun _ => setScalar i 0) :=
    (keeps_setType i _).bind fun _ => keeps_setScalar i 0
  refine (keeps_read i).bind fun o => ?_
  split_ifs
  · exact (keeps_destroyString i).bind fun _ => hrest
  · exact hrest

theorem keeps_construct (t : ValueType) {body : ℕ → Proc World Unit}
    (hbody : ∀ i, Proc.Keeps Accounted (body i)) : Proc.Keeps Accounted (construct t body) := by
  intro w hw
  have hnew : Accounted { w with objects := w.objects ++ [some ⟨t, .raw⟩] } :=
    Ledger.Balanced.congr hw (.of_eq (Ledger.held_append_of_eq_nil World.owns _ rfl))
  have hblock : Proc.Keeps Accounted
      (Proc.tryCatch (body w.objects.length) (release w.objects.length >>= fun _ => Proc.throw) >>=
        fun _ => pure w.objects.length) :=
    ((hbody _).tryCatch ((keeps_release _).bind fun _ => .throw)).bind fun _ => .pure _
  exact hblock _ hnew

theorem keeps_setValueString (i : ℕ) (s : ByteString) (throws : Bool) :
    Proc.Keeps Accounted (setValueString i s throws) := by
  refine (keeps_read i).bind fun o => ?_
  split_ifs
  · exact keeps_assignString i s throws
  · exact (keeps_reset i).bind fun _ => (keeps_setType i _).bind fun _ => keeps_newString i s throws

theorem keeps_setValueScalar (i : ℕ) (v : ParameterValue) :
    Proc.Keeps Accounted (setValueScalar i v) :=
  (keeps_reset i).bind fun _ => (keeps_setType i _).bind fun _ => keeps_store i v false

theorem keeps_copyAssign (i other : ℕ) (throws : Bool) :
    Proc.Keeps Accounted (copyAssign i other throws) := by
  unfold copyAssign
  split_ifs
  · exact (keeps_reset i).bind fun _ => (keeps_read other).bind fun o =>
      (keeps_setType i _).bind fun _ => keeps_copyPayload i other throws
  · exact .pure _

theorem keeps_moveAssign (i other : ℕ) : Proc.Keeps Accounted (moveAssign i other) := by
  unfold moveAssign
  split_ifs
  · exact (keeps_reset i).bind fun _ => (keeps_read other).bind fun o =>
      (keeps_setType i _).bind fun _ => (keeps_copyPayload i other false).bind fun _ =>
        keeps_reset other
  · exact .pure _

theorem keeps_unpack (M : Codec) (i : ℕ) (obj : Object) (throws : Bool) :
    Proc.Keeps Accounted (unpack M i obj throws) := by
  refine (keeps_reset i).bind fun _ => ?_
  split
  · refine (Proc.Keeps.orThrow _).bind fun raw => (keeps_setType i _).bind fun _ => ?_
    split
    · exact (Proc.Keeps.orThrow _).bind fun _ => keeps_setScalar i _
    · exact (Proc.Keeps.orThrow _).bind fun _ => keeps_setScalar i _
    · exact (Proc.Keeps.orThrow _).bind fun _ => keeps_setScalar i _
    · exact (Proc.Keeps.orThrow _).bind fun _ => keeps_newString i _ throws
    · exact (keeps_setType i _).bind fun _ => keeps_setScalar i 0
  · exact keeps_setType i _

end ValueObject

/-- **No string is lost or destroyed twice** by an operation, on whatever objects: where it
would be, the operation is undefined. -/
theorem ValueCall.exec_keeps (M : Codec) (c : ValueCall) : Proc.Keeps Accounted (c.exec M) := by
  cases c with
  | create v throws =>
    exact (keeps_construct _ fun i => keeps_store i v throws).bind fun _ => .pure _
  | copyConstruct other throws =>
    refine Proc.Keeps.bind ((keeps_read other).bind fun o => ?_) fun _ => .pure _
    exact keeps_construct _ fun i => keeps_copyPayload i other throws
  | moveConstruct other =>
    refine Proc.Keeps.bind ((keeps_read other).bind fun o => ?_) fun _ => .pure _
    exact keeps_construct _ fun i => (keeps_copyPayload i other false).bind fun _ =>
      keeps_reset other
  | copyAssign i other throws => exact keeps_copyAssign i other throws
  | moveAssign i other => exact keeps_moveAssign i other
  | setInt i v => exact keeps_setValueScalar i _
  | setDouble i v => exact keeps_setValueScalar i _
  | setBool i v => exact keeps_setValueScalar i _
  | setString i v throws => exact keeps_setValueString i v throws
  | setStringMoved i v => exact keeps_setValueString i v false
  | unpack i obj throws => exact keeps_unpack M i obj throws
  | load i => exact (keeps_load i).bind fun _ => .pure _
  | destroy i => exact (keeps_reset i).bind fun _ => keeps_release i

/-! ### Every tag tells the truth -/

/-- The objects that the operation is applied to are alive. -/
def OperandsAlive (c : ValueCall) (w : World) : Prop :=
  ∀ i ∈ c.operands, ∃ o, w.objects[i]? = some (some o)

/-- The object at the address `i` is tagged as a string. -/
def TaggedString (w : World) (i : ℕ) : Prop :=
  ∃ o, w.objects[i]? = some (some o) ∧ o.type = .string

/-- The operation constructs the string that it announces by a tag. Only the three functions
that construct a string under the tag of a living object may fail to. -/
def FulfilsTag (M : Codec) (c : ValueCall) (w : World) : Prop :=
  match c with
  | .copyAssign i other throws => i ≠ other → TaggedString w other → throws = false
  | .setString i _ throws => ¬TaggedString w i → throws = false
  | .unpack _ obj throws => ¬LacksString M obj throws
  | _ => True

variable {M : Codec}

theorem taggedString_iff {w : World} {i : ℕ} {o : ValueObject}
    (h : w.objects[i]? = some (some o)) : TaggedString w i ↔ o.type = .string := by
  refine ⟨fun ⟨o', h', ht⟩ => ?_, fun ht => ⟨o, h, ht⟩⟩
  rw [h] at h'
  cases h'
  exact ht

theorem OperandsAlive.get {c : ValueCall} {w : World} (halive : OperandsAlive c w)
    (hl : AllTagged w.objects) {i : ℕ} (hi : i ∈ c.operands) :
    ∃ o, w.objects[i]? = some (some o) ∧ o.WellTagged := by
  obtain ⟨o, ho⟩ := halive i hi
  exact ⟨o, ho, hl.of_getElem? ho⟩

/-- An operation that fulfils the tags it sets leaves all objects well tagged. -/
theorem ValueCall.exec_allTagged {c : ValueCall} {w : World} (hl : AllTagged w.objects)
    (halive : OperandsAlive c w) (hful : FulfilsTag M c w) :
    Proc.Spec (Objects w.objects) (c.exec M) (fun _ w' => AllTagged w'.objects)
      (fun w' => AllTagged w'.objects) := by
  have hnone : AllTagged (w.objects ++ [none]) := hl.append nofun
  have hunknown : WellTagged ⟨.unknown, .scalar 0⟩ := .scalar 0 nofun
  cases c with
  | create v throws =>
    refine Proc.Spec.bind (Proc.Spec.mono (ofPayload_spec v throws)
      (fun _ _ h => h.2.allTagged hl) fun w' hE => hE.2.allTagged hnone) fun _ _ h => h
  | copyConstruct other throws =>
    obtain ⟨p, hp, htag⟩ := halive.get hl (i := other) (by simp [operands])
    refine Proc.Spec.bind (Proc.Spec.mono (copyConstruct_spec hp htag throws)
      (fun _ _ h => h.2.allTagged hl) fun w' hE => hE.2.allTagged hnone) fun _ _ h => h
  | moveConstruct other =>
    obtain ⟨p, hp, htag⟩ := halive.get hl (i := other) (by simp [operands])
    refine Proc.Spec.bind (Proc.Spec.mono (moveConstruct_spec hp htag)
      (fun _ _ h => h.2.allTagged (hl.set other hunknown)) fun w' hE => hE) fun _ _ h => h
  | copyAssign i other throws =>
    obtain ⟨o, ho, hotag⟩ := halive.get hl (i := i) (by simp [operands])
    obtain ⟨p, hp, hptag⟩ := halive.get hl (i := other) (by simp [operands])
    by_cases hne : i ≠ other
    · refine (copyAssign_spec hne ho hotag hp hptag throws).mono (fun _ _ h => h.2.allTagged hl)
        fun w' hE => ?_
      have hthrows := hful hne ((taggedString_iff hp).mpr hE.1.2)
      rw [hthrows] at hE
      exact absurd hE.1.1 (by simp)
    · obtain rfl := not_not.mp hne
      rw [exec, copyAssign_self]
      exact fun w' hw' => hw'.allTagged hl
  | moveAssign i other =>
    obtain ⟨o, ho, hotag⟩ := halive.get hl (i := i) (by simp [operands])
    obtain ⟨p, hp, hptag⟩ := halive.get hl (i := other) (by simp [operands])
    by_cases hne : i ≠ other
    · exact (moveAssign_spec hne ho hotag hp hptag).mono
        (fun _ _ h => h.allTagged (hl.set other hunknown)) fun w' hE => hE
    · obtain rfl := not_not.mp hne
      rw [exec, moveAssign_self]
      exact fun w' hw' => hw'.allTagged hl
  | setInt i v | setDouble i v | setBool i v =>
    obtain ⟨o, ho, hotag⟩ := halive.get hl (i := i) (by simp [operands])
    refine (setValueScalar_spec ho hotag ?_).mono (fun _ _ h => h.allTagged hl) fun w' hE => hE
    simp [ParameterValue.type]
  | setString i v throws =>
    obtain ⟨o, ho, hotag⟩ := halive.get hl (i := i) (by simp [operands])
    refine (setValueString_spec ho hotag v throws).mono (fun _ _ h => h.2.allTagged hl) ?_
    rintro w' (⟨-, hw'⟩ | ⟨⟨hthrows, hns⟩, -⟩)
    · exact hw'.allTagged hl
    · rw [hful fun hts => hns ((taggedString_iff ho).mp hts)] at hthrows
      cases hthrows
  | setStringMoved i v =>
    obtain ⟨o, ho, hotag⟩ := halive.get hl (i := i) (by simp [operands])
    refine (setValueString_spec ho hotag v false).mono (fun _ _ h => h.2.allTagged hl) ?_
    rintro w' (⟨-, hw'⟩ | ⟨⟨hthrows, -⟩, -⟩)
    · exact hw'.allTagged hl
    · cases hthrows
  | unpack i obj throws =>
    obtain ⟨o, ho, hotag⟩ := halive.get hl (i := i) (by simp [operands])
    refine (unpack_spec M ho hotag obj throws).mono ?_ ?_
    · rintro _ w' ⟨-, v, -, hstored⟩
      exact hstored.allTagged hl
    · rintro w' ⟨-, t, ht, hw'⟩
      exact hw'.allTagged (hl.set i (.scalar 0 fun hts => hful (ht.mp hts)))
  | load i =>
    obtain ⟨o, ho, hotag⟩ := halive.get hl (i := i) (by simp [operands])
    exact (load_spec ho hotag).bind fun _ w' hw' => hw'.2.allTagged hl
  | destroy i =>
    obtain ⟨o, ho, hotag⟩ := halive.get hl (i := i) (by simp [operands])
    exact (destroy_spec ho hotag).mono (fun _ w' hw' => hw'.allTagged (hl.set_none i))
      fun w' hE => hE

/-- An operation that does not leaves an object with the tag of a string over the bytes of a
number. -/
theorem ValueCall.exec_lies {c : ValueCall} {w : World} (hl : AllTagged w.objects)
    (halive : OperandsAlive c w) (hful : ¬FulfilsTag M c w) :
    Proc.Spec (Objects w.objects) (c.exec M) (fun _ _ => False)
      (fun w' => ∃ i : ℕ, w'.objects[i]? = some (some ⟨.string, .scalar 0⟩)) := by
  have hset : ∀ {i : ℕ} {o : ValueObject} {w' : World}, w.objects[i]? = some (some o) →
      Objects (w.objects.set i (some ⟨.string, .scalar 0⟩)) w' →
      ∃ i : ℕ, w'.objects[i]? = some (some ⟨.string, .scalar 0⟩) := by
    intro i o w' ho hw'
    refine ⟨i, ?_⟩
    rw [show w'.objects = _ from hw', List.getElem?_set_self (List.getElem?_eq_some_iff.mp ho).1]
  cases c with
  | copyAssign i other throws =>
    obtain ⟨o, ho, hotag⟩ := halive.get hl (i := i) (by simp [operands])
    obtain ⟨p, hp, hptag⟩ := halive.get hl (i := other) (by simp [operands])
    simp only [FulfilsTag, taggedString_iff hp, Classical.not_imp, Bool.not_eq_false] at hful
    obtain ⟨hne, hts, hthrows⟩ := hful
    refine (copyAssign_spec hne ho hotag hp hptag throws).mono ?_ fun w' hE => hset ho hE.2
    exact fun _ w' h => h.1 ⟨hthrows, hts⟩
  | setString i v throws =>
    obtain ⟨o, ho, hotag⟩ := halive.get hl (i := i) (by simp [operands])
    simp only [FulfilsTag, taggedString_iff ho, Classical.not_imp, Bool.not_eq_false] at hful
    obtain ⟨hns, hthrows⟩ := hful
    refine (setValueString_spec ho hotag v throws).mono ?_ ?_
    · exact fun _ w' h => h.1 ⟨hthrows, hns⟩
    · rintro w' (⟨hts, -⟩ | ⟨-, hw'⟩)
      · exact absurd hts hns
      · exact hset ho hw'
  | unpack i obj throws =>
    obtain ⟨o, ho, hotag⟩ := halive.get hl (i := i) (by simp [operands])
    refine (unpack_spec M ho hotag obj throws).mono ?_ ?_
    · rintro _ w' ⟨hlacks, -⟩
      exact hful hlacks
    · rintro w' ⟨-, t, ht, hw'⟩
      obtain rfl := ht.mpr (not_not.mp hful)
      exact hset ho hw'
  | _ => exact absurd trivial hful

/-- The invariant of the tagged union, for all objects of a program. -/
structure StringsSound (w : World) : Prop where
  /-- The tag of an object says `String` exactly if its bytes hold a string that has been
  constructed and not destroyed. -/
  tag : ∀ (i : ℕ) (o : ValueObject), w.objects[i]? = some (some o) → (o.type = .string ↔
    ∃ id s, o.value = .stringBuffer id s ∧ id < w.constructed ∧ id ∉ w.destroyed)
  /-- A string lives in exactly one object, or it has been destroyed exactly once. -/
  once : ∀ id < w.constructed, w.live.count id + w.destroyed.count id = 1
  /-- When the last object is gone, every string has been destroyed exactly once. -/
  settled : (∀ o ∈ w.objects, o = none) → ∀ id < w.constructed, w.destroyed.count id = 1

/-- Well-tagged objects whose strings are accounted for. -/
theorem stringsSound {w : World} (htag : AllTagged w.objects) (hacc : Accounted w) :
    StringsSound w where
  tag i o h := by
    rw [(htag.of_getElem? h).string_iff]
    refine ⟨fun ⟨id, s, hval⟩ => ⟨id, s, hval, ?_⟩, fun ⟨id, s, hval, _⟩ => ⟨id, s, hval⟩⟩
    have howns : id ∈ World.owns (some o) := by
      rw [World.owns, Option.elim_some, hval]
      exact List.mem_singleton_self id
    exact Ledger.Balanced.of_mem hacc (Ledger.mem_held World.owns h howns)
  once _ hid := Ledger.Balanced.count_eq_one hacc hid
  settled hnone id hid := by
    have hlive : w.live = [] := List.flatMap_eq_nil_iff.mpr fun o ho => by rw [hnone o ho]; rfl
    have hone := Ledger.Balanced.count_eq_one hacc hid
    rwa [hlive, List.count_nil, Nat.zero_add] at hone

/-- **The tagged-union invariant.** In a run whose operations are applied to living objects, the
invariant holds in every state that is reached, without any undefined behaviour on the way,
exactly if every operation fulfils the tags it sets. -/
theorem strings_sound_iff (M : Codec) (calls : List ValueCall)
    (halive : Proc.Along (ValueCall.exec M) OperandsAlive calls {}) :
    (∀ done, done <+: calls → ∃ rs w, Proc.execAll (ValueCall.exec M) done {} = .ok (rs, w) ∧
      StringsSound w) ↔ Proc.Along (ValueCall.exec M) (FulfilsTag M) calls {} := by
  refine Proc.along_iff (I := fun w => AllTagged w.objects ∧ Accounted w)
    (fun w h => stringsSound h.1 h.2) ?_ ?_ ⟨fun o ho => (by cases ho), .refl _⟩ halive
  · -- the tags need the condition, the accounting does not
    rintro c w ⟨⟨htag, hacc⟩, hal, hful⟩
    exact ((c.exec_allTagged htag hal hful).and_keeps (c.exec_keeps M)) w ⟨rfl, hacc⟩
  · -- an operation that does not fulfil its tag ends by throwing, with a tag that lies
    rintro c w w' ⟨htag, hacc⟩ hal hlead hsound
    by_contra hful
    have hlies := c.exec_lies htag hal hful
    rcases hlead with ⟨r, hr⟩ | hr
    · exact hlies.returned rfl hr
    · obtain ⟨i, hi⟩ := hlies.threw rfl hr
      obtain ⟨id, s, hval, -⟩ := (hsound.tag i _ hi).mp rfl
      cases hval

/-- A string is copied over a number, then an object is unpacked over the copy; both objects are
destroyed. -/
theorem strings_sound_copied :
    ∃ rs w, Proc.execAll (ValueCall.exec Wire.codec)
      [.create (.string [97]) false, .create (.int64 7) false, .copyAssign 1 0 false,
        .unpack 1 (.array [.positiveInteger 20, .nil]) false, .destroy 1, .destroy 0] {} =
      .ok (rs, w) ∧ StringsSound w := by
  refine (strings_sound_iff Wire.codec [.create (.string [97]) false, .create (.int64 7) false,
    .copyAssign 1 0 false, .unpack 1 (.array [.positiveInteger 20, .nil]) false, .destroy 1,
    .destroy 0] ?_).mpr ?_ _ (List.prefix_refl _)
  · refine .cons (by simp [OperandsAlive, ValueCall.operands]) (.inl ⟨(), rfl⟩) ?_
    refine .cons (by simp [OperandsAlive, ValueCall.operands]) (.inl ⟨(), rfl⟩) ?_
    refine .cons ?_ (.inl ⟨(), rfl⟩) (.cons ?_ (.inr rfl) (.cons ?_ (.inl ⟨(), rfl⟩)
      (.cons ?_ (.inl ⟨(), rfl⟩) trivial)))
    all_goals simp [OperandsAlive, ValueCall.operands, World.put]
  · refine ⟨trivial, fun _ _ => ⟨trivial, fun _ _ => ⟨fun _ _ => rfl, fun _ _ => ⟨?_, fun _ _ =>
      ⟨trivial, fun _ _ => ⟨trivial, fun _ _ => trivial⟩⟩⟩⟩⟩⟩
    rintro ⟨_, _, _, hobj, htag, -⟩
    cases hobj
    revert htag
    decide

/-- A pair with the tag of a string and no string behind it is unpacked into a new object, in the
way of the container. It throws, and the destruction of the object is undefined. -/
theorem strings_sound_fails :
    ∃ w, Proc.execAll (ValueCall.exec Wire.codec) [.create .unknown false,
        .unpack 0 (.array [.positiveInteger 30, .nil]) false] {} = .ok ([some (), none], w) ∧
      ¬StringsSound w ∧ (ValueCall.destroy 0).exec Wire.codec w = .undefined .notAlive := by
  refine ⟨_, rfl, fun h => ?_, rfl⟩
  obtain ⟨id, s, hval, -⟩ := (h.tag 0 _ rfl).mp rfl
  cases hval

end MsgFrame
