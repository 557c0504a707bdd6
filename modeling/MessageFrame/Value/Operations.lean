import MessageFrame.MessagePack.WireLawful
import MessageFrame.Model.TaggedUnion

/-!
# What the operations of parameter values do

The objects are *well tagged* between two operations: the tag says what the bytes hold. The
triples here say what each member function makes of well-tagged objects, and what it leaves
behind when it throws; a well-tagged object is spoken of by the value it stands for.

Three functions set the tag of a living object to `String` and then do something that may
throw: the copy assignment, `setValue` and `unpack`. Their exceptional postconditions show an
object with the tag of a string over the bytes of a number. A constructor that throws leaves
no object.
-/

namespace MsgFrame

open Msgpack

namespace ValueObject

/-- The tag says what the bytes hold. -/
inductive WellTagged : ValueObject → Prop
  | string (id : ℕ) (s : ByteString) : WellTagged ⟨.string, .stringBuffer id s⟩
  | scalar {t : ValueType} (bits : UInt64) : t ≠ .string → WellTagged ⟨t, .scalar bits⟩

/-- The value that a well-tagged object stands for. -/
def toValue (o : ValueObject) : ParameterValue :=
  match o.type, o.value with
  | .int64, .scalar bits => .int64 bits.toInt64
  | .double, .scalar bits => .double ⟨bits⟩
  | .bool, .scalar bits => .bool (bits ≠ 0)
  | .string, .stringBuffer _ s => .string s
  | _, _ => .unknown

/-- The object is well tagged and stands for the value. -/
def Holds (o : ValueObject) (v : ParameterValue) : Prop := o.WellTagged ∧ o.toValue = v

theorem WellTagged.type_toValue {o : ValueObject} (h : o.WellTagged) : o.toValue.type = o.type := by
  cases h with
  | string id s => rfl
  | @scalar t bits ht => cases t <;> first | rfl | exact absurd rfl ht

theorem WellTagged.string_iff {o : ValueObject} (h : o.WellTagged) :
    o.type = .string ↔ ∃ id s, o.value = .stringBuffer id s := by
  cases h with
  | string id s => exact iff_of_true rfl ⟨id, s, rfl⟩
  | scalar bits ht => exact iff_of_false ht fun ⟨_, _, h⟩ => by cases h

/-! ### One access at a time

The triples speak of the objects only. -/

/-- The objects of the program are `l`. -/
def Objects (l : List (Option ValueObject)) (w : World) : Prop := w.objects = l

variable {l : List (Option ValueObject)} {i other : ℕ} {o p : ValueObject} {E : World → Prop}

theorem read_apply {w : World} (h : w.objects[i]? = some (some o)) : read i w = .returned o w := by
  simp [read, h]

theorem read_spec (h : l[i]? = some (some o)) :
    Proc.Spec (Objects l) (read i) (fun a w => a = o ∧ Objects l w) E := by
  rintro w rfl
  rw [read_apply h]
  exact ⟨rfl, rfl⟩

/-- Read an object that is known. -/
theorem read_bind {α : Type} {f : ValueObject → Proc World α} {Q : α → World → Prop}
    (h : l[i]? = some (some o)) (hf : Proc.Spec (Objects l) (f o) Q E) :
    Proc.Spec (Objects l) (read i >>= f) Q E := by
  refine (read_spec h).bind fun a => Proc.Spec.of_and ?_
  rintro rfl
  exact hf

theorem setType_spec (h : l[i]? = some (some o)) (t : ValueType) :
    Proc.Spec (Objects l) (setType i t)
      (fun _ => Objects (l.set i (some { o with type := t }))) E := by
  refine read_bind h ?_
  rintro w rfl
  rfl

theorem setScalar_spec (h : l[i]? = some (some o)) (hv : o.value.owns = []) (bits : UInt64) :
    Proc.Spec (Objects l) (setScalar i bits)
      (fun _ => Objects (l.set i (some { o with value := .scalar bits }))) E := by
  refine read_bind h ?_
  rintro w rfl
  cases hval : o.value with
  | stringBuffer id s => simp [hval, ValueUnion.owns] at hv
  | raw => rfl
  | scalar bits => rfl

theorem newString_spec (h : l[i]? = some (some o)) (hv : o.value.owns = []) (s : ByteString)
    (throws : Bool) :
    Proc.Spec (Objects l) (newString i s throws)
      (fun _ w => throws = false ∧
        ∃ id, Objects (l.set i (some { o with value := .stringBuffer id s })) w)
      (fun w => throws = true ∧ Objects l w) := by
  refine read_bind h ?_
  rintro w rfl
  cases throws with
  | true => exact ⟨rfl, rfl⟩
  | false =>
    cases hval : o.value with
    | stringBuffer id s => simp [hval, ValueUnion.owns] at hv
    | raw => exact ⟨rfl, w.constructed, rfl⟩
    | scalar bits => exact ⟨rfl, w.constructed, rfl⟩

theorem assignString_spec {id : ℕ} {s' : ByteString}
    (h : l[i]? = some (some ⟨.string, .stringBuffer id s'⟩)) (s : ByteString) (throws : Bool) :
    Proc.Spec (Objects l) (assignString i s throws)
      (fun _ => Objects (l.set i (some ⟨.string, .stringBuffer id s⟩))) (Objects l) := by
  refine read_bind h ?_
  rintro w rfl
  cases throws <;> rfl

theorem scalar_spec {t : ValueType} {bits : UInt64} (h : l[i]? = some (some ⟨t, .scalar bits⟩)) :
    Proc.Spec (Objects l) (scalar i) (fun a w => a = bits ∧ Objects l w) E :=
  read_bind h fun _ hw => ⟨rfl, hw⟩

theorem asString_spec {t : ValueType} {id : ℕ} {s : ByteString}
    (h : l[i]? = some (some ⟨t, .stringBuffer id s⟩)) :
    Proc.Spec (Objects l) (asString i) (fun a w => a = s ∧ Objects l w) E :=
  read_bind h fun _ hw => ⟨rfl, hw⟩

theorem destroyString_spec {t : ValueType} {id : ℕ} {s : ByteString}
    (h : l[i]? = some (some ⟨t, .stringBuffer id s⟩)) :
    Proc.Spec (Objects l) (destroyString i) (fun _ => Objects (l.set i (some ⟨t, .raw⟩))) E := by
  refine read_bind h ?_
  rintro w rfl
  rfl

theorem release_spec (h : l[i]? = some (some o)) (hv : o.value.owns = []) :
    Proc.Spec (Objects l) (release i) (fun _ => Objects (l.set i none)) E := by
  refine read_bind h ?_
  rintro w rfl
  cases hval : o.value with
  | stringBuffer id s => simp [hval, ValueUnion.owns] at hv
  | raw => rfl
  | scalar bits => rfl

/-! ### The payload -/

/-- A well-tagged object can be read. -/
theorem load_spec (h : l[i]? = some (some o)) (ho : o.WellTagged) :
    Proc.Spec (Objects l) (load i) (fun v w => v = o.toValue ∧ Objects l w) E := by
  refine read_bind h ?_
  cases ho with
  | string id s =>
    refine (asString_spec h).bind fun a => Proc.Spec.of_and ?_
    rintro rfl w hw
    exact ⟨rfl, hw⟩
  | @scalar t bits ht =>
    cases t with
    | unknown => exact fun w hw => ⟨rfl, hw⟩
    | string => exact absurd rfl ht
    | int64 | double | bool =>
      refine (scalar_spec h).bind fun a => Proc.Spec.of_and ?_
      rintro rfl w hw
      exact ⟨rfl, hw⟩

/-- The address `i` now belongs to an object that holds the value. -/
def Stored (l : List (Option ValueObject)) (i : ℕ) (v : ParameterValue) (w : World) : Prop :=
  ∃ o : ValueObject, o.Holds v ∧ Objects (l.set i (some o)) w

private theorem setScalar_stored (h : l[i]? = some (some o)) (hv : o.value.owns = [])
    {bits : UInt64} {v : ParameterValue} (hold : Holds { o with value := .scalar bits } v)
    (ht : v.type ≠ .string) {throws : Bool} :
    Proc.Spec (Objects l) (setScalar i bits)
      (fun _ w => ¬(throws = true ∧ v.type = .string) ∧ Stored l i v w) E :=
  (setScalar_spec h hv bits).mono (fun _ _ hw => ⟨fun hs => ht hs.2, _, hold, hw⟩) fun _ hE => hE

/-- Storing a payload under its tag makes a well-tagged object, unless it is a string whose
construction throws. -/
theorem store_spec (h : l[i]? = some (some o)) (hv : o.value.owns = []) {v : ParameterValue}
    (ht : o.type = v.type) (throws : Bool) :
    Proc.Spec (Objects l) (store i v throws)
      (fun _ w => ¬(throws = true ∧ v.type = .string) ∧ Stored l i v w)
      (fun w => (throws = true ∧ v.type = .string) ∧ Objects l w) := by
  obtain ⟨t, u⟩ := o
  cases v with
  | unknown =>
    obtain rfl : t = .unknown := ht
    exact setScalar_stored (v := .unknown) h hv ⟨.scalar _ nofun, rfl⟩ nofun
  | int64 n =>
    obtain rfl : t = .int64 := ht
    exact setScalar_stored (v := .int64 n) h hv ⟨.scalar _ nofun, by simp [toValue]⟩ nofun
  | double d =>
    obtain rfl : t = .double := ht
    exact setScalar_stored (v := .double d) h hv ⟨.scalar _ nofun, rfl⟩ nofun
  | bool b =>
    obtain rfl : t = .bool := ht
    exact setScalar_stored (v := .bool b) h hv ⟨.scalar _ nofun, by cases b <;> rfl⟩ nofun
  | string s =>
    obtain rfl : t = .string := ht
    refine (newString_spec h hv s throws).mono ?_ fun w hE => ⟨⟨hE.1, rfl⟩, hE.2⟩
    rintro _ w ⟨hthrows, id, hw⟩
    exact ⟨fun hs => absurd hs.1 (by simp [hthrows]), _, ⟨.string id s, rfl⟩, hw⟩

/-- The payload of a well-tagged object, copied under the same tag. -/
theorem copyPayload_spec (h : l[i]? = some (some o)) (hv : o.value.owns = [])
    (hother : l[other]? = some (some p)) (hp : p.WellTagged) (ht : o.type = p.type)
    (throws : Bool) :
    Proc.Spec (Objects l) (copyPayload i other throws)
      (fun _ w => ¬(throws = true ∧ p.type = .string) ∧ Stored l i p.toValue w)
      (fun w => (throws = true ∧ p.type = .string) ∧ Objects l w) := by
  refine (load_spec hother hp).bind fun v => Proc.Spec.of_and ?_
  rintro rfl
  rw [← hp.type_toValue]
  exact store_spec h hv (ht.trans hp.type_toValue.symm) throws

/-- What `reset` and `unpack` do to an object whose bytes hold no string. -/
theorem setUnknown_spec (h : l[i]? = some (some o)) (hv : o.value.owns = []) :
    Proc.Spec (Objects l) (setType i .unknown >>= fun _ => setScalar i 0)
      (fun _ => Objects (l.set i (some ⟨.unknown, .scalar 0⟩))) E := by
  have hi : i < l.length := (List.getElem?_eq_some_iff.mp h).1
  refine (setType_spec h .unknown).bind fun _ => ?_
  have hset := setScalar_spec (E := E) (o := ⟨.unknown, o.value⟩) (List.getElem?_set_self hi) hv 0
  rwa [List.set_set] at hset

/-- `reset` makes a well-tagged object an `Unknown` one. -/
theorem reset_spec (h : l[i]? = some (some o)) (ho : o.WellTagged) :
    Proc.Spec (Objects l) (reset i)
      (fun _ => Objects (l.set i (some ⟨.unknown, .scalar 0⟩))) E := by
  have hi : i < l.length := (List.getElem?_eq_some_iff.mp h).1
  refine read_bind h ?_
  cases ho with
  | string id s =>
    simp only [if_true]
    refine (destroyString_spec h).bind fun _ => ?_
    have hset := setUnknown_spec (E := E) (o := ⟨.string, .raw⟩) (List.getElem?_set_self hi) rfl
    rwa [List.set_set] at hset
  | scalar bits ht =>
    simp only [if_neg ht]
    exact setUnknown_spec h rfl

/-! ### Whole operations -/

/-- Every object is well tagged. -/
def AllTagged (l : List (Option ValueObject)) : Prop := ∀ o, some o ∈ l → o.WellTagged

theorem AllTagged.of_getElem? (hl : AllTagged l) (h : l[i]? = some (some o)) : o.WellTagged :=
  hl o (List.mem_of_getElem? h)

theorem AllTagged.set (hl : AllTagged l) (i : ℕ) (ho : o.WellTagged) :
    AllTagged (l.set i (some o)) := by
  intro a ha
  rcases List.mem_or_eq_of_mem_set ha with hmem | heq
  · exact hl a hmem
  · cases heq
    exact ho

theorem AllTagged.set_none (hl : AllTagged l) (i : ℕ) : AllTagged (l.set i none) := by
  intro a ha
  rcases List.mem_or_eq_of_mem_set ha with hmem | heq
  · exact hl a hmem
  · cases heq

theorem AllTagged.append (hl : AllTagged l) {c : Option ValueObject}
    (hc : ∀ o, c = some o → o.WellTagged) : AllTagged (l ++ [c]) := by
  intro a ha
  rcases List.mem_append.mp ha with hmem | hlast
  · exact hl a hmem
  · exact hc a (List.mem_singleton.mp hlast).symm

theorem Objects.allTagged (hl : AllTagged l) {w : World} (hw : Objects l w) :
    AllTagged w.objects := by
  rw [show w.objects = l from hw]
  exact hl

theorem Stored.allTagged (hl : AllTagged l) {v : ParameterValue} {w : World}
    (h : Stored l i v w) : AllTagged w.objects := by
  obtain ⟨o, ho, hw⟩ := h
  exact hw.allTagged (hl.set i ho.1)

theorem Stored.of_set {c : Option ValueObject} {v : ParameterValue} {w : World}
    (h : Stored (l.set i c) i v w) : Stored l i v w := by
  obtain ⟨o, ho, hw⟩ := h
  rw [List.set_set] at hw
  exact ⟨o, ho, hw⟩

/-- **A constructor** leaves the new object behind if its body does, and nothing if the body
throws: then the address stays empty. -/
theorem construct_spec {t : ValueType} {body : ℕ → Proc World Unit}
    {Q : World → Prop} {F : Prop}
    (hbody : Proc.Spec (Objects (l ++ [some ⟨t, .raw⟩])) (body l.length) (fun _ => Q)
      (fun w => F ∧ Objects (l ++ [some ⟨t, .raw⟩]) w)) :
    Proc.Spec (Objects l) (construct t body) (fun i w => i = l.length ∧ Q w)
      (fun w => F ∧ Objects (l ++ [none]) w) := by
  -- what the language does with a half-built object: its storage is given back
  have hhandler : Proc.Spec (fun w => F ∧ Objects (l ++ [some ⟨t, .raw⟩]) w)
      (release l.length >>= fun _ => Proc.throw) (fun _ : Unit => Q)
      (fun w => F ∧ Objects (l ++ [none]) w) := by
    refine Proc.Spec.of_and fun hE => ?_
    have hrelease := release_spec (E := fun w => F ∧ Objects (l ++ [none]) w) (o := ⟨t, .raw⟩)
      (l := l ++ [some ⟨t, .raw⟩]) List.getElem?_concat_length rfl
    refine hrelease.bind fun _ w hw => ⟨hE, ?_⟩
    rwa [List.set_append_right _ _ (Nat.le_refl _), Nat.sub_self, List.set_cons_zero] at hw
  rintro w rfl
  have hblock := (hbody.tryCatch hhandler).bind (f := fun _ => pure w.objects.length)
    (Q := fun i w' => i = w.objects.length ∧ Q w') fun _ _ hQ => ⟨rfl, hQ⟩
  exact hblock { w with objects := w.objects ++ [some ⟨t, .raw⟩] } rfl

/-- A new object holds the value. -/
def Built (l : List (Option ValueObject)) (v : ParameterValue) (w : World) : Prop :=
  ∃ o : ValueObject, o.Holds v ∧ Objects (l ++ [some o]) w

theorem Stored.built {c : Option ValueObject} {v : ParameterValue} {w : World}
    (h : Stored (l ++ [c]) l.length v w) : Built l v w := by
  obtain ⟨o, ho, hw⟩ := h
  refine ⟨o, ho, ?_⟩
  rwa [List.set_append_right _ _ (Nat.le_refl _), Nat.sub_self, List.set_cons_zero] at hw

theorem Built.allTagged (hl : AllTagged l) {v : ParameterValue} {w : World} (h : Built l v w) :
    AllTagged w.objects := by
  obtain ⟨o, ho, hw⟩ := h
  exact hw.allTagged <| hl.append fun _ h => Option.some.inj h ▸ ho.1

/-- The constructors from a payload. -/
theorem ofPayload_spec (v : ParameterValue) (throws : Bool) :
    Proc.Spec (Objects l) (ofPayload v throws) (fun i w => i = l.length ∧ Built l v w)
      (fun w => (throws = true ∧ v.type = .string) ∧ Objects (l ++ [none]) w) := by
  refine construct_spec ?_
  refine (store_spec List.getElem?_concat_length rfl rfl throws).mono ?_ fun _ hE => hE
  exact fun _ _ h => h.2.built

/-- The copy constructor. -/
theorem copyConstruct_spec (hother : l[other]? = some (some p)) (hp : p.WellTagged)
    (throws : Bool) :
    Proc.Spec (Objects l) (copyConstruct other throws)
      (fun i w => i = l.length ∧ Built l p.toValue w)
      (fun w => (throws = true ∧ p.type = .string) ∧ Objects (l ++ [none]) w) := by
  have hlt : other < l.length := (List.getElem?_eq_some_iff.mp hother).1
  refine read_bind hother (construct_spec ?_)
  have hother' : (l ++ [some ⟨p.type, .raw⟩])[other]? = some (some p) := by
    rw [List.getElem?_append_left hlt, hother]
  refine (copyPayload_spec List.getElem?_concat_length rfl hother' hp rfl throws).mono ?_
    fun _ hE => hE
  exact fun _ _ h => h.2.built

/-- The move constructor: the new object holds the value, the other one is `Unknown`. -/
theorem moveConstruct_spec (hother : l[other]? = some (some p)) (hp : p.WellTagged) :
    Proc.Spec (Objects l) (moveConstruct other)
      (fun i w => i = l.length ∧
        Built (l.set other (some ⟨.unknown, .scalar 0⟩)) p.toValue w) E := by
  have hlt : other < l.length := (List.getElem?_eq_some_iff.mp hother).1
  have hother' : ∀ c : Option ValueObject, (l ++ [c])[other]? = some (some p) := by
    intro c
    rw [List.getElem?_append_left hlt, hother]
  refine (read_bind hother (construct_spec (F := False) ?_)).mono (fun _ _ h => h)
    fun _ hE => hE.1.elim
  have hcopy := copyPayload_spec (o := ⟨p.type, .raw⟩) List.getElem?_concat_length rfl
    (hother' (some ⟨p.type, .raw⟩)) hp rfl false
  refine (hcopy.mono (fun _ _ h => h.2.built) fun _ hE => absurd hE.1.1 (by simp)).bind fun _ => ?_
  refine Proc.Spec.of_exists fun o => Proc.Spec.of_and fun ho => ?_
  refine (reset_spec (hother' _) hp).mono (fun _ w hw => ⟨o, ho, ?_⟩) fun _ hE => hE
  rwa [List.set_append_left _ _ hlt] at hw

/-- After `reset`, the object gets a new tag; then the rest of the body runs. -/
theorem setType_bind (hlt : i < l.length) {t : ValueType} {rest : Proc World Unit}
    {Q : Unit → World → Prop}
    (hrest : Proc.Spec (Objects (l.set i (some ⟨t, .scalar 0⟩))) rest Q E) :
    Proc.Spec (Objects (l.set i (some ⟨.unknown, .scalar 0⟩))) (setType i t >>= fun _ => rest)
      Q E := by
  have hset := setType_spec (E := E) (o := ⟨.unknown, .scalar 0⟩)
    (List.getElem?_set_self (a := some ⟨.unknown, .scalar 0⟩) hlt) t
  rw [List.set_set] at hset
  exact hset.bind fun _ => hrest

/-- Self-assignment does nothing. -/
theorem copyAssign_self (i : ℕ) (throws : Bool) : copyAssign i i throws = pure () := by
  unfold copyAssign
  rw [if_neg fun h => h rfl]

theorem moveAssign_self (i : ℕ) : moveAssign i i = pure () := by
  unfold moveAssign
  rw [if_neg fun h => h rfl]

/-- The copy assignment between different objects. If it throws, the tag announces a string that
has not been constructed. -/
theorem copyAssign_spec (hne : i ≠ other) (h : l[i]? = some (some o)) (ho : o.WellTagged)
    (hother : l[other]? = some (some p)) (hp : p.WellTagged) (throws : Bool) :
    Proc.Spec (Objects l) (copyAssign i other throws)
      (fun _ w => ¬(throws = true ∧ p.type = .string) ∧ Stored l i p.toValue w)
      (fun w => (throws = true ∧ p.type = .string) ∧
        Objects (l.set i (some ⟨.string, .scalar 0⟩)) w) := by
  have hlt : i < l.length := (List.getElem?_eq_some_iff.mp h).1
  have hother' : ∀ c : Option ValueObject, (l.set i c)[other]? = some (some p) := by
    intro c
    rw [List.getElem?_set_ne hne, hother]
  unfold copyAssign
  rw [if_pos hne]
  refine (reset_spec h ho).bind fun _ => read_bind (hother' _) (setType_bind hlt ?_)
  have hcopy := copyPayload_spec (o := ⟨p.type, .scalar 0⟩) (List.getElem?_set_self hlt) rfl
    (hother' (some ⟨p.type, .scalar 0⟩)) hp rfl throws
  refine hcopy.mono (fun _ _ h => ⟨h.1, h.2.of_set⟩) ?_
  rintro w ⟨hthrows, hw⟩
  -- only a string can throw, so the tag that was copied is that of a string
  rw [hthrows.2] at hw
  exact ⟨hthrows, hw⟩

/-- The move assignment between different objects. -/
theorem moveAssign_spec (hne : i ≠ other) (h : l[i]? = some (some o)) (ho : o.WellTagged)
    (hother : l[other]? = some (some p)) (hp : p.WellTagged) :
    Proc.Spec (Objects l) (moveAssign i other)
      (fun _ => Stored (l.set other (some ⟨.unknown, .scalar 0⟩)) i p.toValue) E := by
  have hlt : i < l.length := (List.getElem?_eq_some_iff.mp h).1
  have hother' : ∀ c : Option ValueObject, (l.set i c)[other]? = some (some p) := by
    intro c
    rw [List.getElem?_set_ne hne, hother]
  unfold moveAssign
  rw [if_pos hne]
  refine (reset_spec h ho).bind fun _ => read_bind (hother' _) (setType_bind hlt ?_)
  have hcopy := copyPayload_spec (o := ⟨p.type, .scalar 0⟩) (List.getElem?_set_self hlt) rfl
    (hother' (some ⟨p.type, .scalar 0⟩)) hp rfl false
  refine (hcopy.mono (fun _ _ h => h.2.of_set) fun _ hE => absurd hE.1.1 (by simp)).bind fun _ => ?_
  refine Proc.Spec.of_exists fun o' => Proc.Spec.of_and fun ho' => ?_
  refine (reset_spec (hother' _) hp).mono (fun _ w hw => ⟨o', ho', ?_⟩) fun _ hE => hE
  rwa [List.set_comm _ _ hne] at hw

/-- The setters for scalars. -/
theorem setValueScalar_spec (h : l[i]? = some (some o)) (ho : o.WellTagged) {v : ParameterValue}
    (hv : v.type ≠ .string) :
    Proc.Spec (Objects l) (setValueScalar i v) (fun _ => Stored l i v) E := by
  have hlt : i < l.length := (List.getElem?_eq_some_iff.mp h).1
  refine (reset_spec h ho).bind fun _ => setType_bind hlt ?_
  have hstore := store_spec (o := ⟨v.type, .scalar 0⟩) (List.getElem?_set_self hlt)
    (l := l.set i (some ⟨v.type, .scalar 0⟩)) rfl rfl false
  exact hstore.mono (fun _ _ h => h.2.of_set) fun _ hE => absurd hE.1.2 hv

/-- The setters for strings. If the construction of a string throws, the tag announces it
nevertheless; if an assignment throws, nothing happens. -/
theorem setValueString_spec (h : l[i]? = some (some o)) (ho : o.WellTagged) (s : ByteString)
    (throws : Bool) :
    Proc.Spec (Objects l) (setValueString i s throws)
      (fun _ w => ¬(throws = true ∧ o.type ≠ .string) ∧ Stored l i (.string s) w)
      (fun w => (o.type = .string ∧ Objects l w) ∨ ((throws = true ∧ o.type ≠ .string) ∧
        Objects (l.set i (some ⟨.string, .scalar 0⟩)) w)) := by
  have hlt : i < l.length := (List.getElem?_eq_some_iff.mp h).1
  refine read_bind h ?_
  cases ho with
  | string id s' =>
    rw [if_pos rfl]
    refine (assignString_spec h s throws).mono (fun _ w hw => ?_) fun w hw => .inl ⟨rfl, hw⟩
    exact ⟨fun hs => hs.2 rfl, _, ⟨.string id s, rfl⟩, hw⟩
  | scalar bits ht =>
    rw [if_neg ht]
    refine (reset_spec h (.scalar bits ht)).bind fun _ => setType_bind hlt ?_
    have hnew := newString_spec (o := ⟨.string, .scalar 0⟩)
      (List.getElem?_set_self (a := some ⟨.string, .scalar 0⟩) hlt) rfl s throws
    refine hnew.mono ?_ fun w hE => .inr ⟨⟨hE.1, ht⟩, hE.2⟩
    rintro _ w ⟨hthrows, id, hw⟩
    exact ⟨fun hs => absurd hs.1 (by simp [hthrows]), Stored.of_set ⟨_, ⟨.string id s, rfl⟩, hw⟩⟩

theorem destroy_spec (h : l[i]? = some (some o)) (ho : o.WellTagged) :
    Proc.Spec (Objects l) (destroy i) (fun _ => Objects (l.set i none)) E := by
  have hlt : i < l.length := (List.getElem?_eq_some_iff.mp h).1
  have hrelease := release_spec (E := E) (o := ⟨.unknown, .scalar 0⟩)
    (List.getElem?_set_self (a := some ⟨.unknown, .scalar 0⟩) hlt) rfl
  rw [List.set_set] at hrelease
  exact (reset_spec h ho).bind fun _ => hrelease

/-! ### Unpacking -/

/-- The object is a pair with the tag of a string, but the payload is none, or the string cannot
be constructed. -/
def LacksString (M : Codec) (obj : Object) (throws : Bool) : Prop :=
  ∃ tag payload rest, obj = .array (tag :: payload :: rest) ∧ M.asUInt8 tag = some 30 ∧
    (M.asStringView payload = none ∨ throws = true)

/-- The value that `unpack` leaves in an object when it returns. -/
def Unpacked (M : Codec) (l : List (Option ValueObject)) (i : ℕ) (obj : Object) (throws : Bool)
    (w : World) : Prop :=
  ¬LacksString M obj throws ∧ ∃ v, ParameterValue.unpack M obj = some v ∧ Stored l i v w

/-- What `unpack` leaves when it throws: the tag is set, the payload is not. -/
def Interrupted (M : Codec) (l : List (Option ValueObject)) (i : ℕ) (obj : Object) (throws : Bool)
    (w : World) : Prop :=
  (ParameterValue.unpack M obj = none ∨ throws = true) ∧
    ∃ t, (t = .string ↔ LacksString M obj throws) ∧ Objects (l.set i (some ⟨t, .scalar 0⟩)) w

variable {M : Codec}

private theorem not_lacksString {tag payload : Object} {rest : List Object} {throws : Bool}
    (h : ∀ raw, M.asUInt8 tag = some raw → ValueType.ofRaw raw ≠ .string) :
    ¬LacksString M (.array (tag :: payload :: rest)) throws := by
  rintro ⟨_, _, _, hobj, htag, -⟩
  cases hobj
  exact h 30 htag rfl

theorem ofRaw_eq_string {raw : UInt8} (h : ValueType.ofRaw raw = .string) : raw = 30 := by
  unfold ValueType.ofRaw at h
  split_ifs at h with h₁ h₂ h₃
  exact h₃

/-- A scalar payload is converted and stored. -/
private theorem scalarPayload_spec {α : Type} (hlt : i < l.length) {t : ValueType}
    {tag payload : Object} {rest : List Object} {raw : UInt8} (htag : M.asUInt8 tag = some raw)
    (hraw : ValueType.ofRaw raw = t) (ht : t ≠ .string) (conv : Option α) (bits : α → UInt64)
    (val : α → ParameterValue) (hval : ∀ a, (ValueObject.mk t (.scalar (bits a))).toValue = val a)
    {throws : Bool}
    (hunpack : ParameterValue.unpack M (.array (tag :: payload :: rest)) = conv.map val) :
    Proc.Spec (Objects (l.set i (some ⟨t, .scalar 0⟩)))
      (Proc.orThrow conv >>= fun a => setScalar i (bits a))
      (fun _ => Unpacked M l i (.array (tag :: payload :: rest)) throws)
      (Interrupted M l i (.array (tag :: payload :: rest)) throws) := by
  have hlacks : ¬LacksString M (.array (tag :: payload :: rest)) throws := by
    refine not_lacksString fun raw' h => ?_
    rw [htag] at h
    cases h
    rwa [hraw]
  cases conv with
  | none => exact fun w hw => ⟨.inl hunpack, t, iff_of_false ht hlacks, hw⟩
  | some a =>
    refine Proc.Spec.mono (setScalar_spec (o := ⟨t, .scalar 0⟩) (List.getElem?_set_self hlt) rfl
      (bits a)) (fun _ w hw => ⟨hlacks, val a, hunpack, ?_⟩) fun w hE => hE
    exact Stored.of_set ⟨_, ⟨.scalar _ ht, hval a⟩, hw⟩

/-- A string payload is converted and a string is constructed, under a tag that is set already. -/
private theorem stringPayload_spec (hlt : i < l.length) {tag payload : Object} {rest : List Object}
    {throws : Bool} {raw : UInt8} (htag : M.asUInt8 tag = some raw)
    (hraw : ValueType.ofRaw raw = .string) :
    Proc.Spec (Objects (l.set i (some ⟨.string, .scalar 0⟩)))
      (Proc.orThrow (M.asStringView payload) >>= fun sv => newString i sv throws)
      (fun _ => Unpacked M l i (.array (tag :: payload :: rest)) throws)
      (Interrupted M l i (.array (tag :: payload :: rest)) throws) := by
  obtain rfl := ofRaw_eq_string hraw
  cases hsv : M.asStringView payload with
  | none =>
    have hunpack : ParameterValue.unpack M (.array (tag :: payload :: rest)) = none := by
      simp [ParameterValue.unpack, htag, hraw, hsv]
    exact fun w hw => ⟨.inl hunpack, .string, iff_of_true rfl ⟨_, _, _, rfl, htag, .inl hsv⟩, hw⟩
  | some sv =>
    have hnew := newString_spec (o := ⟨.string, .scalar 0⟩)
      (List.getElem?_set_self (a := some ⟨.string, .scalar 0⟩) hlt) rfl sv throws
    refine hnew.mono ?_ fun w hE => ⟨.inr hE.1, .string, iff_of_true rfl ⟨_, _, _, rfl, htag,
      .inr hE.1⟩, hE.2⟩
    rintro _ w ⟨hthrows, id, hw⟩
    refine ⟨?_, .string sv, ?_, Stored.of_set ⟨_, ⟨.string id sv, rfl⟩, hw⟩⟩
    · rintro ⟨_, _, _, hobj, -, hlacks⟩
      cases hobj
      simp [hsv, hthrows] at hlacks
    · simp [ParameterValue.unpack, htag, hraw, hsv]

/-- **`unpack`** makes the object hold the value that the wire object stands for. If a payload
does not convert, it throws, and then the tag announces a string exactly if the wire object did. -/
theorem unpack_spec (M : Codec) (h : l[i]? = some (some o)) (ho : o.WellTagged) (obj : Object)
    (throws : Bool) :
    Proc.Spec (Objects l) (unpack M i obj throws) (fun _ => Unpacked M l i obj throws)
      (Interrupted M l i obj throws) := by
  have hlt : i < l.length := (List.getElem?_eq_some_iff.mp h).1
  refine (reset_spec h ho).bind fun _ => ?_
  -- anything that is not a pair is left `Unknown`
  have hother : (∀ tag payload rest, obj ≠ .array (tag :: payload :: rest)) →
      ParameterValue.unpack M obj = some .unknown →
      Proc.Spec (Objects (l.set i (some ⟨.unknown, .scalar 0⟩))) (setType i .unknown)
        (fun _ => Unpacked M l i obj throws) (Interrupted M l i obj throws) := by
    intro hobj hunpack
    refine Proc.Spec.mono (setType_spec (o := ⟨.unknown, .scalar 0⟩) (List.getElem?_set_self hlt)
      .unknown) (fun _ w hw => ⟨?_, .unknown, hunpack, ?_⟩) fun w hE => hE
    · rintro ⟨tag, payload, rest, rfl, -⟩
      exact hobj _ _ _ rfl
    · exact Stored.of_set ⟨⟨.unknown, .scalar 0⟩, ⟨.scalar 0 nofun, rfl⟩, hw⟩
  match obj with
  | .array (tag :: payload :: rest) =>
    dsimp only
    cases htag : M.asUInt8 tag with
    | none =>
      have hlacks : ¬LacksString M (.array (tag :: payload :: rest)) throws :=
        not_lacksString (by simp [htag])
      have hunpack : ParameterValue.unpack M (.array (tag :: payload :: rest)) = none := by
        simp [ParameterValue.unpack, htag]
      exact fun w hw => ⟨.inl hunpack, .unknown, iff_of_false nofun hlacks, hw⟩
    | some raw =>
      show Proc.Spec _ (setType i (.ofRaw raw) >>= fun _ => _) _ _
      refine setType_bind hlt ?_
      cases hraw : ValueType.ofRaw raw with
      | int64 =>
        exact scalarPayload_spec hlt htag hraw nofun (M.asInt64 payload) Int64.toUInt64 .int64
          (by simp [toValue]) (by simp [ParameterValue.unpack, htag, hraw])
      | double =>
        exact scalarPayload_spec hlt htag hraw nofun (M.asDouble payload) Double.bits .double
          (fun _ => rfl) (by simp [ParameterValue.unpack, htag, hraw])
      | bool =>
        exact scalarPayload_spec hlt htag hraw nofun (M.asBool payload)
          (fun b => if b then 1 else 0) .bool (by rintro (_ | _) <;> rfl)
          (by simp [ParameterValue.unpack, htag, hraw])
      | string => exact stringPayload_spec hlt htag hraw
      | unknown =>
        have hlacks : ¬LacksString M (.array (tag :: payload :: rest)) throws :=
          not_lacksString (by simp [htag, hraw])
        have hset := setUnknown_spec (o := ⟨.unknown, .scalar 0⟩) (List.getElem?_set_self hlt) rfl
          (E := Interrupted M l i (.array (tag :: payload :: rest)) throws)
        refine hset.mono (fun _ w hw => ⟨hlacks, .unknown, ?_, ?_⟩) fun w hE => hE
        · simp [ParameterValue.unpack, htag, hraw]
        · exact Stored.of_set ⟨⟨.unknown, .scalar 0⟩, ⟨.scalar 0 nofun, rfl⟩, hw⟩
  | .array [] => exact hother nofun rfl
  | .array [_] => exact hother nofun rfl
  | .nil | .boolean _ | .positiveInteger _ | .negativeInteger _ | .float32 _ | .float64 _ | .str _
  | .bin _ | .map _ | .ext _ _ => exact hother nofun rfl

/-- The destructor of an object whose tag lies. -/
theorem destroy_of_lie {w : World} {bits : UInt64}
    (h : w.objects[i]? = some (some ⟨.string, .scalar bits⟩)) :
    destroy i w = .undefined .notAlive := by
  have hstring : destroyString i w = .undefined .notAlive := by
    unfold destroyString
    rw [Proc.bind_of_returned (read_apply h)]
    rfl
  have hreset : reset i w = .undefined .notAlive := by
    unfold reset
    rw [Proc.bind_of_returned (read_apply h), if_pos rfl, Proc.bind_apply, hstring]
  rw [destroy, Proc.bind_apply, hreset]

/-- **The object unpacks to the value.** Where memory suffices, `unpack` leaves the object with
the value that the wire object stands for, if there is one. If there is none it throws, and then
the object can be destroyed — as the container does with its local one — unless the wire
object announced a string. -/
theorem unpack_refines {w : World} (h : w.objects[i]? = some (some o)) (ho : o.WellTagged)
    (obj : Object) :
    (∀ v, ParameterValue.unpack M obj = some v →
      ∃ w', unpack M i obj false w = .returned () w' ∧ Stored w.objects i v w') ∧
    (ParameterValue.unpack M obj = none → ∃ w', unpack M i obj false w = .threw w' ∧
      ((∃ w'', destroy i w' = .returned () w'') ↔ ¬LacksString M obj false)) := by
  have hspec := unpack_spec M h ho obj false w rfl
  cases hexec : unpack M i obj false w with
  | returned r w' =>
    rw [hexec] at hspec
    obtain ⟨-, v, hv, hstored⟩ := hspec
    refine ⟨fun v' hv' => ⟨w', rfl, ?_⟩, fun hnone => ?_⟩
    · obtain rfl : v = v' := by simpa [hv] using hv'
      exact hstored
    · rw [hnone] at hv
      cases hv
  | threw w' =>
    rw [hexec] at hspec
    obtain ⟨hnone | hthrows, t, ht, hw'⟩ := hspec
    · refine ⟨fun v' hv' => absurd hv' (by simp [hnone]), fun _ => ⟨w', rfl, ?_⟩⟩
      have hi : w'.objects[i]? = some (some ⟨t, .scalar 0⟩) := by
        rw [show w'.objects = _ from hw', List.getElem?_set_self (List.getElem?_eq_some_iff.mp h).1]
      by_cases hts : t = .string
      · subst hts
        refine iff_of_false ?_ fun hlacks => hlacks (ht.mp rfl)
        rintro ⟨w'', hd⟩
        rw [destroy_of_lie hi] at hd
        cases hd
      · refine iff_of_true ?_ fun hlacks => hts (ht.mpr hlacks)
        have hd := destroy_spec (E := fun _ => False) hi (.scalar 0 hts) w' rfl
        cases hdx : destroy i w' with
        | returned r w'' => exact ⟨w'', rfl⟩
        | threw w'' => simp only [hdx] at hd
        | undefined e => simp only [hdx] at hd
    · cases hthrows
  | undefined e => simp only [hexec] at hspec

end ValueObject

end MsgFrame
