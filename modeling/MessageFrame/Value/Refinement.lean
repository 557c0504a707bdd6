import MessageFrame.ForMathlib.Runs
import MessageFrame.Value.Lifetimes

/-!
# Parameter values are values

What the tagged union is for: a program has variables, each of which holds a value of a sum type,
and copying, moving, setting, unpacking and destroying do to the variables what they say
(`ValueCall.step`). In particular a copy is independent of the original, and a payload that does
not convert leaves the zero of the type that was announced. `objects_refine_variables` states that
the objects of a program behave like such variables, exceptions included.

What a program must not do is stated for the variables alone: use a variable that is gone, or run
out of memory while a string is constructed under the tag of a living object.
-/

namespace MsgFrame

open Msgpack

/-! ### Variables -/

/-- The variables of a program, `none` for one that is gone. -/
abbrev Variables := List (Option ParameterValue)

/-- The value of a type whose bytes are zero. -/
def ValueType.zero : ValueType → ParameterValue
  | .unknown => .unknown
  | .int64 => .int64 0
  | .double => .double ⟨0⟩
  | .string => .string []
  | .bool => .bool false

/-- The type that a wire object announces. -/
def announced (M : Codec) : Object → ValueType
  | .array (tag :: _ :: _) => ((M.asUInt8 tag).map ValueType.ofRaw).getD .unknown
  | _ => .unknown

namespace Variables

/-- The value of a variable. -/
def val (l : Variables) (i : ℕ) : ParameterValue := l[i]?.join.getD .unknown

/-- A new variable; there is none if its string cannot be constructed. -/
def declare (v : ParameterValue) (throws : Bool) (l : Variables) : Option Unit × Variables :=
  if throws = true ∧ v.type = .string then (none, l ++ [none]) else (some (), l ++ [some v])

/-- A variable is assigned to. -/
def assign (l : Variables) (i : ℕ) (v : ParameterValue) : Option Unit × Variables :=
  (some (), l.set i (some v))

/-- A variable receives a value, or the zero of the type that was announced. -/
def receive (l : Variables) (i : ℕ) (t : ValueType) :
    Option ParameterValue → Option Unit × Variables
  | some v => l.assign i v
  | none => (none, l.set i (some t.zero))

end Variables

/-- The effect of an operation on the variables; the reply is `none` if it throws. -/
def ValueCall.step (M : Codec) (c : ValueCall) (l : Variables) : Option Unit × Variables :=
  match c with
  | .create v throws => l.declare v throws
  | .copyConstruct other throws => l.declare (l.val other) throws
  | .moveConstruct other => (some (), l.set other (some .unknown) ++ [some (l.val other)])
  | .copyAssign i other _ => l.assign i (l.val other)
  | .moveAssign i other =>
    if i = other then (some (), l)
    else Variables.assign (l.set other (some .unknown)) i (l.val other)
  | .setInt i v => l.assign i (.int64 v)
  | .setDouble i v => l.assign i (.double v)
  | .setBool i v => l.assign i (.bool v)
  | .setString i v throws =>
    if throws = true ∧ (l.val i).type = .string then (none, l) else l.assign i (.string v)
  | .setStringMoved i v => l.assign i (.string v)
  | .unpack i obj _ => l.receive i (announced M obj) (ParameterValue.unpack M obj)
  | .load _ => (some (), l)
  | .destroy i => (some (), l.set i none)

/-- The effect of a use. -/
def ValueUse.step (M : Codec) (u : ValueUse) (l : Variables) : Option ValueReply × Variables :=
  match u with
  | .call c => ((c.step M l).1.map fun _ => .void, (c.step M l).2)
  | .getType i => (some (.type (l.val i).type), l)
  | .tryGetInt i => (some (.int (l.val i).tryGetInt), l)
  | .tryGetDouble i => (some (.double (l.val i).tryGetDouble), l)
  | .tryGetString i throws =>
    (if throws = true ∧ (l.val i).type = .string then none
      else some (.string (l.val i).tryGetString), l)
  | .tryGetBool i => (some (.bool (l.val i).tryGetBool), l)
  | .pack i buffer =>
    (match (l.val i).pack M buffer with
      | .returned _ out => some (.packed out)
      | _ => none, l)

/-- The use constructs the string that it announces by the tag of a living object. -/
def ValueUse.Fulfils (M : Codec) (u : ValueUse) (l : Variables) : Prop :=
  match u with
  | .call (.copyAssign i other throws) =>
    i ≠ other → (l.val other).type = .string → throws = false
  | .call (.setString i _ throws) => (l.val i).type ≠ .string → throws = false
  | .call (.unpack _ obj throws) => ¬ValueObject.LacksString M obj throws
  | _ => True

/-- The variables that the use is applied to are there, and it fulfils the tags it sets. -/
structure ValueUse.Admitted (M : Codec) (u : ValueUse) (l : Variables) : Prop where
  alive : ∀ i ∈ u.operands, ∃ v, l[i]? = some (some v)
  fulfils : u.Fulfils M l

/-! ### Objects and variables -/

/-- Packing a value may throw, on a string that is too long, but nothing worse. -/
theorem ParameterValue.pack_defined (v : ParameterValue) (M : Codec) : (v.pack M).Defined := by
  refine (write_defined _).bind fun _ => (write_defined _).bind fun _ => ?_
  cases v with
  | string s => exact (Proc.Defined.orThrow _).bind fun bytes => write_defined bytes
  | _ => exact write_defined _

namespace ValueObject

/-- The variables that well-tagged objects stand for. -/
def values (l : List (Option ValueObject)) : Variables := l.map (Option.map toValue)

variable {l : List (Option ValueObject)} {i other : ℕ} {o p : ValueObject} {M : Codec}

theorem values_set (l : List (Option ValueObject)) (i : ℕ) (c : Option ValueObject) :
    values (l.set i c) = (values l).set i (c.map toValue) := List.map_set

theorem values_append (l : List (Option ValueObject)) (c : Option ValueObject) :
    values (l ++ [c]) = values l ++ [c.map toValue] := List.map_append

theorem val_values (h : l[i]? = some (some o)) : (values l).val i = o.toValue := by
  simp [Variables.val, values, h]

theorem Objects.values {w : World} (hw : Objects l w) :
    ValueObject.values w.objects = ValueObject.values l := by
  rw [show w.objects = l from hw]

theorem Stored.values {v : ParameterValue} {w : World} (h : Stored l i v w) :
    ValueObject.values w.objects = (ValueObject.values l).set i (some v) := by
  obtain ⟨o, ho, hw⟩ := h
  rw [hw.values, values_set, Option.map_some, ho.2]

theorem Built.values {v : ParameterValue} {w : World} (h : Built l v w) :
    ValueObject.values w.objects = ValueObject.values l ++ [some v] := by
  obtain ⟨o, ho, hw⟩ := h
  rw [hw.values, values_append, Option.map_some, ho.2]

theorem toValue_zero {t : ValueType} (ht : t ≠ .string) :
    toValue ⟨t, .scalar 0⟩ = t.zero := by
  cases t with
  | string => exact absurd rfl ht
  | _ => rfl

/-! ### What the operations do to the variables -/

/-- The operation leaves the variables `l'`, and replies that it has returned or thrown. -/
def Reaches {α : Type} (x : Proc World α) (l : List (Option ValueObject))
    (step : Option Unit × Variables) : Prop :=
  Proc.Spec (Objects l) x (fun _ w => (some (), values w.objects) = step)
    (fun w => (none, values w.objects) = step)

/-- A constructor whose body stores a payload. -/
private theorem construct_reaches {v : ParameterValue} {throws : Bool}
    {body : ℕ → Proc World Unit}
    (hbody : Proc.Spec (Objects (l ++ [some ⟨v.type, .raw⟩])) (body l.length)
      (fun _ w => ¬(throws = true ∧ v.type = .string) ∧
        Stored (l ++ [some ⟨v.type, .raw⟩]) l.length v w)
      (fun w => (throws = true ∧ v.type = .string) ∧ Objects (l ++ [some ⟨v.type, .raw⟩]) w)) :
    Reaches (construct v.type body) l ((values l).declare v throws) := by
  have hspec := construct_spec (Q := fun w => ¬(throws = true ∧ v.type = .string) ∧ Built l v w)
    (hbody.mono (fun _ _ h => ⟨h.1, h.2.built⟩) fun _ hE => hE)
  refine hspec.mono ?_ ?_
  · rintro _ w ⟨-, hreturns, hbuilt⟩
    rw [Variables.declare, if_neg hreturns, hbuilt.values]
  · rintro w ⟨hthrows, hw⟩
    rw [Variables.declare, if_pos hthrows, hw.values, values_append, Option.map_none]

theorem ofPayload_reaches (v : ParameterValue) (throws : Bool) :
    Reaches (ofPayload v throws) l ((values l).declare v throws) :=
  construct_reaches (store_spec List.getElem?_concat_length rfl rfl throws)

theorem copyConstruct_reaches (hother : l[other]? = some (some p)) (hp : p.WellTagged)
    (throws : Bool) :
    Reaches (copyConstruct other throws) l ((values l).declare p.toValue throws) := by
  have hlt : other < l.length := (List.getElem?_eq_some_iff.mp hother).1
  refine read_bind hother ?_
  rw [← hp.type_toValue]
  refine construct_reaches ?_
  have hother' : (l ++ [some ⟨p.toValue.type, .raw⟩])[other]? = some (some p) := by
    rw [List.getElem?_append_left hlt, hother]
  have hcopy := copyPayload_spec (o := ⟨p.toValue.type, .raw⟩) List.getElem?_concat_length rfl
    hother' hp hp.type_toValue throws
  rwa [← hp.type_toValue] at hcopy

/-- An operation that does not throw. -/
theorem Reaches.of_returned {α : Type} {x : Proc World α} {Q : α → World → Prop} {l' : Variables}
    (h : Proc.Spec (Objects l) x Q fun _ => False) (hQ : ∀ a w, Q a w → values w.objects = l') :
    Reaches x l (some (), l') :=
  h.mono (fun a w hw => by rw [hQ a w hw]) fun _ hE => hE.elim

/-- The value that is returned is not used. -/
theorem Reaches.discard {α : Type} {x : Proc World α} {step : Option Unit × Variables}
    (h : Reaches x l step) : Reaches (x >>= fun _ => (pure () : Proc World Unit)) l step :=
  Proc.Spec.bind h fun _ _ hw => hw

theorem moveConstruct_reaches (hother : l[other]? = some (some p)) (hp : p.WellTagged) :
    Reaches (moveConstruct other) l
      (some (), (values l).set other (some .unknown) ++ [some p.toValue]) := by
  refine .of_returned (moveConstruct_spec hother hp) fun _ w h => ?_
  rw [h.2.values, values_set]
  rfl

theorem copyAssign_reaches (h : l[i]? = some (some o)) (ho : o.WellTagged)
    (hother : l[other]? = some (some p)) (hp : p.WellTagged) {throws : Bool}
    (hful : i ≠ other → p.type = .string → throws = false) :
    Reaches (copyAssign i other throws) l ((values l).assign i p.toValue) := by
  by_cases hne : i ≠ other
  · refine (copyAssign_spec hne h ho hother hp throws).mono (fun _ w hw => ?_) fun w hE => ?_
    · rw [hw.2.values]
      rfl
    · rw [hful hne hE.1.2] at hE
      exact absurd hE.1.1 Bool.false_ne_true
  · -- a self-assignment assigns the value that is there
    obtain rfl := not_not.mp hne
    obtain rfl : o = p := by
      rw [h] at hother
      exact Option.some.inj (Option.some.inj hother)
    obtain ⟨hlt, hi⟩ := List.getElem?_eq_some_iff.mp h
    have hself : (values l).set i (some o.toValue) = values l := by
      rw [← Option.map_some, ← values_set, ← hi, List.set_getElem_self]
    rw [copyAssign_self, Variables.assign, hself]
    exact fun w hw => by rw [← hw.values]; rfl

theorem moveAssign_reaches (h : l[i]? = some (some o)) (ho : o.WellTagged)
    (hother : l[other]? = some (some p)) (hp : p.WellTagged) :
    Reaches (moveAssign i other) l (if i = other then (some (), values l)
      else Variables.assign ((values l).set other (some .unknown)) i p.toValue) := by
  by_cases hne : i = other
  · rw [if_pos hne, hne, moveAssign_self]
    exact fun w hw => by rw [← hw.values]; rfl
  · rw [if_neg hne]
    refine .of_returned (moveAssign_spec hne h ho hother hp) fun _ w hw => ?_
    rw [hw.values, values_set]
    rfl

theorem setValueScalar_reaches (h : l[i]? = some (some o)) (ho : o.WellTagged) {v : ParameterValue}
    (hv : v.type ≠ .string) : Reaches (setValueScalar i v) l ((values l).assign i v) :=
  .of_returned (setValueScalar_spec h ho hv) fun _ _ hw => hw.values

/-- A string that is not assigned to keeps its contents. -/
theorem setValueString_reaches (h : l[i]? = some (some o)) (ho : o.WellTagged) (s : ByteString)
    {throws : Bool} (hful : o.type ≠ .string → throws = false) :
    Reaches (setValueString i s throws) l
      (if throws = true ∧ o.type = .string then (none, values l)
        else (values l).assign i (.string s)) := by
  cases ho with
  | string id s' =>
    refine read_bind h ?_
    rw [if_pos rfl]
    cases throws with
    | true =>
      rw [if_pos ⟨rfl, rfl⟩]
      exact read_bind h fun w hw => by rw [← hw.values]; rfl
    | false =>
      rw [if_neg (by simp)]
      refine Reaches.of_returned
        (Q := fun _ => Objects (l.set i (some ⟨.string, .stringBuffer id s⟩))) (read_bind h ?_)
        fun _ w hw => by rw [hw.values, values_set]; rfl
      rintro w rfl
      rfl
  | scalar bits ht =>
    obtain rfl := hful ht
    rw [if_neg (by simp)]
    refine (setValueString_spec h (.scalar bits ht) s false).mono (fun _ w hw => ?_) ?_
    · rw [hw.2.values]
      rfl
    · rintro w (⟨hts, -⟩ | ⟨⟨hthrows, -⟩, -⟩)
      · exact absurd hts ht
      · cases hthrows

theorem destroy_reaches (h : l[i]? = some (some o)) (ho : o.WellTagged) :
    Reaches (destroy i) l (some (), (values l).set i none) :=
  .of_returned (destroy_spec h ho) fun _ _ hw => by rw [hw.values, values_set]; rfl

/-! ### Unpacking -/

/-- An object whose payload is not stored under its new tag. -/
private theorem receive_none {t : ValueType} (ht : t ≠ .string) {w : World}
    (hw : Objects (l.set i (some ⟨t, .scalar 0⟩)) w) :
    (none, values w.objects) = (values l).receive i t none := by
  rw [hw.values, values_set, Option.map_some, toValue_zero ht]
  rfl

/-- An object that holds a new value under its new tag. -/
private theorem receive_some {c : Option ValueObject} {t : ValueType} {w : World}
    (hw : Objects ((l.set i c).set i (some o)) w) :
    (some (), values w.objects) = (values l).receive i t (some o.toValue) := by
  rw [hw.values, List.set_set, values_set]
  rfl

/-- A scalar payload is converted and stored, under a tag that is set already. -/
private theorem scalarPayload_reaches {α : Type} (hlt : i < l.length) {t : ValueType}
    (ht : t ≠ .string) (conv : Option α) (bits : α → UInt64) (val : α → ParameterValue)
    (hval : ∀ a, toValue ⟨t, .scalar (bits a)⟩ = val a) :
    Proc.Spec (Objects (l.set i (some ⟨t, .scalar 0⟩)))
      (Proc.orThrow conv >>= fun a => setScalar i (bits a))
      (fun _ w => (some (), values w.objects) = (values l).receive i t (conv.map val))
      (fun w => (none, values w.objects) = (values l).receive i t (conv.map val)) := by
  cases conv with
  | none => exact fun w hw => receive_none ht hw
  | some a =>
    refine Proc.Spec.mono (setScalar_spec (o := ⟨t, .scalar 0⟩) (List.getElem?_set_self hlt) rfl
      (bits a)) (fun _ w hw => ?_) fun _ hE => hE
    rw [Option.map_some, ← hval]
    exact receive_some hw

/-- A string payload is converted and a string is constructed. -/
private theorem stringPayload_reaches (hlt : i < l.length) {conv : Option ByteString}
    (hconv : conv ≠ none) :
    Proc.Spec (Objects (l.set i (some ⟨.string, .scalar 0⟩)))
      (Proc.orThrow conv >>= fun sv => newString i sv false)
      (fun _ w => (some (), values w.objects) = (values l).receive i .string (conv.map .string))
      (fun w => (none, values w.objects) =
        (values l).receive i .string (conv.map .string)) := by
  obtain ⟨sv, rfl⟩ := Option.ne_none_iff_exists'.mp hconv
  refine Proc.Spec.mono (newString_spec (o := ⟨.string, .scalar 0⟩) (List.getElem?_set_self hlt) rfl
    sv false) ?_ fun w hE => absurd hE.1 Bool.false_ne_true
  rintro _ w ⟨-, id, hw⟩
  exact receive_some hw

/-- **`unpack`** makes the object hold the value that the wire object stands for, or the zero of
the type that it announces. -/
theorem unpack_reaches (h : l[i]? = some (some o)) (ho : o.WellTagged) {obj : Object}
    {throws : Bool} (hful : ¬LacksString M obj throws) :
    Reaches (unpack M i obj throws) l
      ((values l).receive i (announced M obj) (ParameterValue.unpack M obj)) := by
  have hlt : i < l.length := (List.getElem?_eq_some_iff.mp h).1
  refine (reset_spec h ho).bind fun _ => ?_
  -- anything that is not a pair is left `Unknown`
  have hother : ParameterValue.unpack M obj = some .unknown →
      Proc.Spec (Objects (l.set i (some ⟨.unknown, .scalar 0⟩))) (setType i .unknown)
        (fun _ w => (some (), values w.objects) =
          (values l).receive i (announced M obj) (ParameterValue.unpack M obj))
        (fun w => (none, values w.objects) =
          (values l).receive i (announced M obj) (ParameterValue.unpack M obj)) := by
    intro hunpack
    refine Proc.Spec.mono (setType_spec (o := ⟨.unknown, .scalar 0⟩) (List.getElem?_set_self hlt)
      .unknown) (fun _ w hw => ?_) fun _ hE => hE
    rw [hunpack]
    exact receive_some hw
  cases obj with
  | array elems =>
    rcases elems with _ | ⟨tag, _ | ⟨payload, rest⟩⟩
    · exact hother rfl
    · exact hother rfl
    show Proc.Spec _ (Proc.orThrow (M.asUInt8 tag) >>= fun _ => _) _ _
    cases htag : M.asUInt8 tag with
    | none =>
      have hunpack : ParameterValue.unpack M (.array (tag :: payload :: rest)) = none := by
        simp [ParameterValue.unpack, htag]
      have hannounced : announced M (.array (tag :: payload :: rest)) = .unknown := by
        simp [announced, htag]
      rw [hunpack, hannounced]
      exact fun w hw => receive_none (t := .unknown) (by decide) hw
    | some raw =>
      have hannounced : announced M (.array (tag :: payload :: rest)) = ValueType.ofRaw raw := by
        simp [announced, htag]
      rw [hannounced]
      show Proc.Spec _ (setType i (.ofRaw raw) >>= fun _ => _) _ _
      refine setType_bind hlt ?_
      cases hraw : ValueType.ofRaw raw with
      | int64 =>
        have hunpack : ParameterValue.unpack M (.array (tag :: payload :: rest)) =
            (M.asInt64 payload).map .int64 := by simp [ParameterValue.unpack, htag, hraw]
        rw [hunpack]
        exact scalarPayload_reaches (t := .int64) hlt (by decide) _ Int64.toUInt64 .int64
          (by simp [toValue])
      | double =>
        have hunpack : ParameterValue.unpack M (.array (tag :: payload :: rest)) =
            (M.asDouble payload).map .double := by simp [ParameterValue.unpack, htag, hraw]
        rw [hunpack]
        exact scalarPayload_reaches (t := .double) hlt (by decide) _ Double.bits .double
          fun _ => rfl
      | bool =>
        have hunpack : ParameterValue.unpack M (.array (tag :: payload :: rest)) =
            (M.asBool payload).map .bool := by simp [ParameterValue.unpack, htag, hraw]
        rw [hunpack]
        exact scalarPayload_reaches (t := .bool) hlt (by decide) _ (fun b => if b then 1 else 0)
          .bool (by rintro (_ | _) <;> rfl)
      | string =>
        have hunpack : ParameterValue.unpack M (.array (tag :: payload :: rest)) =
            (M.asStringView payload).map .string := by simp [ParameterValue.unpack, htag, hraw]
        obtain rfl := ofRaw_eq_string hraw
        have hconv : M.asStringView payload ≠ none := fun hconv =>
          hful ⟨_, _, _, rfl, htag, .inl hconv⟩
        have hthrows : throws = false :=
          Bool.eq_false_iff.mpr fun hthrows => hful ⟨_, _, _, rfl, htag, .inr hthrows⟩
        rw [hunpack, hthrows]
        exact stringPayload_reaches hlt hconv
      | unknown =>
        have hunpack : ParameterValue.unpack M (.array (tag :: payload :: rest)) =
            some .unknown := by simp [ParameterValue.unpack, htag, hraw]
        rw [hunpack]
        refine (setUnknown_spec (o := ⟨.unknown, .scalar 0⟩) (List.getElem?_set_self hlt)
          rfl).mono (fun _ w hw => receive_some hw) fun _ hE => hE
  | _ => exact hother rfl

/-! ### The getters -/

/-- A getter of a scalar reads what the same getter finds in the value. -/
private theorem tryGetScalar_eq {α : Type} (t : ValueType) (member : UInt64 → α)
    (get : ParameterValue → Option α) (ht : t ≠ .string) (hstring : ∀ s, get (.string s) = none)
    (hscalar : ∀ t' bits, get (toValue ⟨t', .scalar bits⟩) =
      if t' = t then some (member bits) else none)
    {w : World} (h : w.objects[i]? = some (some o)) (ho : o.WellTagged) :
    tryGetScalar t member i w = .returned (get o.toValue) w := by
  unfold tryGetScalar
  rw [Proc.bind_of_returned (read_apply h)]
  cases ho with
  | string id s =>
    rw [if_neg ht.symm]
    exact congrArg (Outcome.returned · w) (hstring s).symm
  | @scalar t' bits ht' =>
    rw [hscalar]
    by_cases hsame : t' = t
    · rw [if_pos hsame, if_pos hsame]
      have hbits : scalar i w = .returned bits w := Proc.bind_of_returned (read_apply h) _
      rw [Proc.bind_of_returned hbits]
      rfl
    · rw [if_neg hsame, if_neg hsame]
      rfl

theorem tryGetInt_eq {w : World} (h : w.objects[i]? = some (some o)) (ho : o.WellTagged) :
    tryGetInt i w = .returned o.toValue.tryGetInt w :=
  tryGetScalar_eq .int64 _ ParameterValue.tryGetInt nofun (fun _ => rfl)
    (fun t _ => by cases t <;> rfl) h ho

theorem tryGetDouble_eq {w : World} (h : w.objects[i]? = some (some o)) (ho : o.WellTagged) :
    tryGetDouble i w = .returned o.toValue.tryGetDouble w :=
  tryGetScalar_eq .double _ ParameterValue.tryGetDouble nofun (fun _ => rfl)
    (fun t _ => by cases t <;> rfl) h ho

theorem tryGetBool_eq {w : World} (h : w.objects[i]? = some (some o)) (ho : o.WellTagged) :
    tryGetBool i w = .returned o.toValue.tryGetBool w :=
  tryGetScalar_eq .bool _ ParameterValue.tryGetBool nofun (fun _ => rfl)
    (fun t _ => by cases t <;> rfl) h ho

theorem tryGetString_ends {w : World} (h : w.objects[i]? = some (some o)) (ho : o.WellTagged)
    (throws : Bool) : Proc.Ends (tryGetString i throws) w
      (if throws = true ∧ o.toValue.type = .string then none
        else some o.toValue.tryGetString) w := by
  rw [ho.type_toValue]
  unfold tryGetString
  cases ho with
  | string id s =>
    have hcopy : asString i w = .returned s w := Proc.bind_of_returned (read_apply h) _
    cases throws with
    | true =>
      rw [if_pos ⟨rfl, rfl⟩]
      exact (Proc.bind_of_returned (read_apply h) _).trans (Proc.bind_of_returned hcopy _)
    | false =>
      rw [if_neg (by simp)]
      exact (Proc.bind_of_returned (read_apply h) _).trans (Proc.bind_of_returned hcopy _)
  | @scalar t bits ht =>
    have hnone : (toValue ⟨t, .scalar bits⟩).tryGetString = none := by
      cases t <;> rfl
    rw [if_neg fun hs => ht hs.2, hnone]
    exact (Proc.bind_of_returned (read_apply h) _).trans (congrFun (if_neg ht) w)

theorem pack_ends (M : Codec) {w : World} (h : w.objects[i]? = some (some o)) (ho : o.WellTagged)
    (buffer : ByteString) : ∃ w', Proc.Ends (pack M i buffer) w
      (match o.toValue.pack M buffer with
        | .returned _ out => some out
        | _ => none) w' ∧ Objects w.objects w' := by
  have hload := load_spec (E := fun _ => False) h ho w rfl
  cases hout : load i w with
  | returned v w' =>
    rw [hout] at hload
    obtain ⟨rfl, hobjects⟩ := hload
    refine ⟨w', ?_, hobjects⟩
    have hdefined := (o.toValue.pack_defined M).ne_undefined buffer
    unfold pack
    cases hbytes : o.toValue.pack M buffer with
    | returned a out =>
      refine (Proc.bind_of_returned hout _).trans ?_
      rw [hbytes]
      rfl
    | threw out =>
      refine (Proc.bind_of_returned hout _).trans ?_
      rw [hbytes]
      rfl
    | undefined e => exact absurd hbytes (hdefined e)
  | threw w' => simp only [hout] at hload
  | undefined e => simp only [hout] at hload

end ValueObject

open ValueObject

/-! ### Runs -/

variable {M : Codec}

/-- **One operation** does to the variables what it says. -/
theorem ValueCall.exec_reaches {c : ValueCall} {w : World} (hl : AllTagged w.objects)
    (halive : OperandsAlive c w) (hful : (ValueUse.call c).Fulfils M (values w.objects)) :
    Reaches (c.exec M) w.objects (c.step M (values w.objects)) := by
  cases c with
  | create v throws => exact (ofPayload_reaches v throws).discard
  | copyConstruct other throws =>
    obtain ⟨p, hp, hptag⟩ := halive.get hl (i := other) (by simp [operands])
    rw [step, val_values hp]
    exact (copyConstruct_reaches hp hptag throws).discard
  | moveConstruct other =>
    obtain ⟨p, hp, hptag⟩ := halive.get hl (i := other) (by simp [operands])
    rw [step, val_values hp]
    exact (moveConstruct_reaches hp hptag).discard
  | copyAssign i other throws =>
    obtain ⟨o, ho, hotag⟩ := halive.get hl (i := i) (by simp [operands])
    obtain ⟨p, hp, hptag⟩ := halive.get hl (i := other) (by simp [operands])
    rw [ValueUse.Fulfils, val_values hp, hptag.type_toValue] at hful
    rw [step, val_values hp]
    exact copyAssign_reaches ho hotag hp hptag hful
  | moveAssign i other =>
    obtain ⟨o, ho, hotag⟩ := halive.get hl (i := i) (by simp [operands])
    obtain ⟨p, hp, hptag⟩ := halive.get hl (i := other) (by simp [operands])
    rw [step, val_values hp]
    exact moveAssign_reaches ho hotag hp hptag
  | setInt i v | setDouble i v | setBool i v =>
    obtain ⟨o, ho, hotag⟩ := halive.get hl (i := i) (by simp [operands])
    exact setValueScalar_reaches ho hotag (by simp [ParameterValue.type])
  | setString i v throws =>
    obtain ⟨o, ho, hotag⟩ := halive.get hl (i := i) (by simp [operands])
    rw [ValueUse.Fulfils, val_values ho, hotag.type_toValue] at hful
    rw [step, val_values ho, hotag.type_toValue]
    exact setValueString_reaches ho hotag v hful
  | setStringMoved i v =>
    obtain ⟨o, ho, hotag⟩ := halive.get hl (i := i) (by simp [operands])
    have hset : Reaches (setValueString i v false) w.objects _ :=
      setValueString_reaches ho hotag v fun _ => rfl
    rwa [if_neg (by simp)] at hset
  | unpack i obj throws =>
    obtain ⟨o, ho, hotag⟩ := halive.get hl (i := i) (by simp [operands])
    exact unpack_reaches ho hotag hful
  | load i =>
    obtain ⟨o, ho, hotag⟩ := halive.get hl (i := i) (by simp [operands])
    refine Reaches.discard (.of_returned (load_spec ho hotag) fun _ _ hw => hw.2.values)
  | destroy i =>
    obtain ⟨o, ho, hotag⟩ := halive.get hl (i := i) (by simp [operands])
    exact destroy_reaches ho hotag

/-- The objects fulfil their tags if the variables do. -/
theorem fulfilsTag_of_fulfils {c : ValueCall} {w : World} (hl : AllTagged w.objects)
    (halive : OperandsAlive c w) (hful : (ValueUse.call c).Fulfils M (values w.objects)) :
    FulfilsTag M c w := by
  cases c with
  | copyAssign i other throws =>
    obtain ⟨p, hp, hptag⟩ := halive.get hl (i := other) (by simp [ValueCall.operands])
    rw [ValueUse.Fulfils, val_values hp, hptag.type_toValue] at hful
    rwa [FulfilsTag, taggedString_iff hp]
  | setString i v throws =>
    obtain ⟨o, ho, hotag⟩ := halive.get hl (i := i) (by simp [ValueCall.operands])
    rw [ValueUse.Fulfils, val_values ho, hotag.type_toValue] at hful
    rwa [FulfilsTag, taggedString_iff ho]
  | _ => exact hful

/-- The objects are well tagged and hold the variables. -/
structure World.Holds (w : World) (l : Variables) : Prop where
  tagged : AllTagged w.objects
  values : ValueObject.values w.objects = l

/-- **One use** replies what the variables reply. -/
theorem World.Holds.exec {w : World} {l : Variables} (h : w.Holds l) {u : ValueUse}
    (hu : u.Admitted M l) :
    ∃ w', Proc.Ends (u.exec M) w (u.step M l).1 w' ∧ w'.Holds (u.step M l).2 := by
  obtain ⟨hl, rfl⟩ := h
  have hget : ∀ i ∈ u.operands, ∃ o, w.objects[i]? = some (some o) ∧ o.WellTagged := by
    intro i hi
    obtain ⟨v, hv⟩ := hu.alive i hi
    rw [ValueObject.values, List.getElem?_map, Option.map_eq_some_iff] at hv
    obtain ⟨c, hc, hv⟩ := hv
    obtain ⟨o, rfl, -⟩ := Option.map_eq_some_iff.mp hv
    exact ⟨o, hc, hl.of_getElem? hc⟩
  cases u with
  | call c =>
    have halive : OperandsAlive c w := fun i hi => (hget i hi).imp fun _ h => h.1
    have hreaches := c.exec_reaches hl halive hu.fulfils
    have htagged := c.exec_allTagged hl halive (fulfilsTag_of_fulfils hl halive hu.fulfils)
    obtain ⟨r, w', hends, hstep⟩ := Proc.Spec.ends (P := Objects w.objects)
      (Q := fun (r : Option Unit) (w' : World) => (r, ValueObject.values w'.objects) =
        c.step M (ValueObject.values w.objects)) hreaches rfl
    rw [ValueUse.step, ← hstep]
    exact ⟨w', hends.map fun _ => ValueReply.void, htagged.of_leads rfl hends.leads, rfl⟩
  | getType i =>
    obtain ⟨o, ho, hotag⟩ := hget i (by simp [ValueUse.operands])
    rw [ValueUse.step, val_values ho, hotag.type_toValue]
    have htype : getType i w = .returned o.type w := Proc.bind_of_returned (read_apply ho) _
    exact ⟨w, Proc.bind_of_returned htype _, hl, rfl⟩
  | tryGetInt i =>
    obtain ⟨o, ho, hotag⟩ := hget i (by simp [ValueUse.operands])
    rw [ValueUse.step, val_values ho]
    exact ⟨w, Proc.bind_of_returned (tryGetInt_eq ho hotag) _, hl, rfl⟩
  | tryGetDouble i =>
    obtain ⟨o, ho, hotag⟩ := hget i (by simp [ValueUse.operands])
    rw [ValueUse.step, val_values ho]
    exact ⟨w, Proc.bind_of_returned (tryGetDouble_eq ho hotag) _, hl, rfl⟩
  | tryGetString i throws =>
    obtain ⟨o, ho, hotag⟩ := hget i (by simp [ValueUse.operands])
    have hends := (tryGetString_ends ho hotag throws).map ValueReply.string
    rw [ValueUse.step, val_values ho]
    refine ⟨w, ?_, hl, rfl⟩
    split_ifs at hends ⊢ with hthrows
    · exact hends
    · exact hends
  | tryGetBool i =>
    obtain ⟨o, ho, hotag⟩ := hget i (by simp [ValueUse.operands])
    rw [ValueUse.step, val_values ho]
    exact ⟨w, Proc.bind_of_returned (tryGetBool_eq ho hotag) _, hl, rfl⟩
  | pack i buffer =>
    obtain ⟨o, ho, hotag⟩ := hget i (by simp [ValueUse.operands])
    obtain ⟨w', hends, hobjects⟩ := pack_ends M ho hotag buffer
    have hends := hends.map ValueReply.packed
    rw [ValueUse.step, val_values ho]
    refine ⟨w', ?_, hobjects.allTagged hl, hobjects.values⟩
    cases hbytes : o.toValue.pack M buffer <;> rw [hbytes] at hends <;> exact hends

/-- **Objects are variables.** Let a program use its `ParameterValue` objects in any way that the
variables admit. Every use ends with the reply that the variables give, or with an exception where
they foresee one, and the objects hold the values of the variables. -/
theorem objects_refine_variables (M : Codec) (uses : List ValueUse)
    (hadmits : Proc.Admits (ValueUse.step M) (ValueUse.Admitted M) uses []) :
    ∃ w, Proc.execAll (ValueUse.exec M) uses {} =
        .ok ((Proc.runMachine (ValueUse.step M) uses []).1, w) ∧
      w.Holds (Proc.runMachine (ValueUse.step M) uses []).2 :=
  Proc.execAll_ends (R := fun w l => World.Holds w l) (fun _ _ _ h hu => h.exec hu)
    ⟨fun o ho => (by cases ho), rfl⟩ hadmits

/-- A copy is set to another string, and the original keeps its own; then the copy receives a pair
with the tag of a double and no double behind it. -/
theorem objects_refine_variables_copied :
    ∃ w, Proc.execAll (ValueUse.exec Wire.codec) [.call (.create (.string [97]) false),
        .call (.copyConstruct 0 false), .call (.setString 1 [98] false), .tryGetString 0 false,
        .call (.unpack 1 (.array [.positiveInteger 20, .nil]) false), .tryGetDouble 1] {} =
      .ok ([some .void, some .void, some .void, some (.string (some [97])), none,
        some (.double (some ⟨0⟩))], w) ∧
      w.Holds [some (.string [97]), some (.double ⟨0⟩)] := by
  refine objects_refine_variables Wire.codec [.call (.create (.string [97]) false),
    .call (.copyConstruct 0 false), .call (.setString 1 [98] false), .tryGetString 0 false,
    .call (.unpack 1 (.array [.positiveInteger 20, .nil]) false), .tryGetDouble 1] ?_
  have hone : ∀ {i : ℕ} {l : Variables} (v : ParameterValue), l[i]? = some (some v) →
      ∀ j ∈ [i], ∃ v, l[j]? = some (some v) := by
    rintro i l v h j hj
    obtain rfl := List.mem_singleton.mp hj
    exact ⟨v, h⟩
  refine ⟨⟨nofun, trivial⟩, ⟨hone (.string [97]) rfl, trivial⟩,
    ⟨hone (.string [97]) rfl, fun _ => rfl⟩, ⟨hone (.string [97]) rfl, trivial⟩,
    ⟨hone (.string [98]) rfl, ?_⟩, ⟨hone (.double ⟨0⟩) rfl, trivial⟩, trivial⟩
  rintro ⟨_, _, _, hobj, htag, -⟩
  cases hobj
  revert htag
  decide

end MsgFrame
