import MessageFrame.Container.Unpack
import MessageFrame.Model.MessageFrame

/-!
# What a frame holds after deserializing a buffer

The three sections of a frame are decoded one after another into the live frame. Each of them
is described by what it stores and by whether it gets to its end, as functions of the decoded
object:

* a header section stands for eight assignments, of which those before the first conversion
  failure are performed; a section that is not an array of at least eight elements stands for
  none, and so leaves the header alone;
* a parameter section is described by `HybridMessageMap.Unpacked`;
* an attachment section replaces the list by the attachments before the first name that does
  not convert.

`deserialize_spec` puts them together: `Deserialized` lists the four ways in which a call can
end. The call itself always returns, since every exception is caught.
-/

namespace MsgFrame

open Msgpack

/-! ### The header section -/

namespace MessageHeader

variable (M : Codec)

/-- One field of a header section, as the assignment it causes. -/
def fieldRead {α : Type} (elems : List Object) (i : ℕ) (as : Object → Option α)
    (assign : α → MessageHeader → MessageHeader) : Option (MessageHeader → MessageHeader) :=
  (elems[i]?.bind as).map assign

/-- The assignments a header section stands for. -/
def reads : Object → List (Option (MessageHeader → MessageHeader))
  | .array elems =>
    if elems.length < 8 then []
    else
      [fieldRead elems 0 M.asUInt64 fun v h => { h with timestamp := v },
        fieldRead elems 1 M.asUInt64 fun v h => { h with messageCnt := v },
        fieldRead elems 2 M.asUInt32 fun v h => { h with sourceId := v },
        fieldRead elems 3 M.asUInt32 fun v h => { h with targetId := v },
        fieldRead elems 4 M.asInt32 fun v h => { h with messageId := v },
        fieldRead elems 5 M.asInt32 fun v h => { h with messageType := v },
        fieldRead elems 6 M.asUInt16 fun v h => { h with version := v },
        fieldRead elems 7 M.asUInt16 fun v h => { h with flags := v }]
  | _ => []

/-- The header after the assignments before the first field that does not convert. -/
def received (obj : Object) (h : MessageHeader) : MessageHeader :=
  (Proc.converted id (reads M obj)).foldl (fun h assign => assign h) h

/-- All fields of the section convert. -/
def convertible (obj : Object) : Bool := Proc.converts id (reads M obj)

variable {M}

/-- Perform one assignment, or throw. -/
private def runRead (read : Option (MessageHeader → MessageHeader)) : Proc MessageHeader Unit :=
  Proc.orThrow read >>= Proc.modify

private theorem unpackField_eq {α : Type} {elems : List Object} {i : ℕ} (hi : i < elems.length)
    (as : Object → Option α) (assign : α → MessageHeader → MessageHeader) :
    unpackField elems i as assign = runRead (fieldRead elems i as assign) := by
  funext h
  have hat : Checked.at elems i = .ok elems[i] := by
    rw [Checked.at, List.getElem?_eq_getElem hi]
  unfold unpackField runRead fieldRead
  rw [hat, Proc.eval_ok_bind, List.getElem?_eq_getElem hi, Option.bind_some]
  cases as elems[i] <;> rfl

/-- The body of `unpack` is a loop over the assignments. -/
private theorem unpack_eq_forEach (obj : Object) :
    unpack M obj = Proc.forEach runRead (reads M obj) := by
  cases obj with
  | array elems =>
    rw [unpack, reads]
    split_ifs with hlen
    · rfl
    · rw [Nat.not_lt] at hlen
      rw [unpackField_eq (i := 0) (by omega), unpackField_eq (i := 1) (by omega),
        unpackField_eq (i := 2) (by omega), unpackField_eq (i := 3) (by omega),
        unpackField_eq (i := 4) (by omega), unpackField_eq (i := 5) (by omega),
        unpackField_eq (i := 6) (by omega), unpackField_eq (i := 7) (by omega)]
      simp only [Proc.forEach_cons, Proc.bind_forEach_nil]
  | _ => rfl

/-- **What `MessageHeader::unpack` does** on any object. -/
theorem unpack_spec (M : Codec) (obj : Object) (h : MessageHeader) : unpack M obj h =
    if convertible M obj then .returned () (received M obj h) else .threw (received M obj h) := by
  rw [unpack_eq_forEach]
  refine Proc.forEach_converts (fun h => h)
    (fun h (assign : MessageHeader → MessageHeader) => assign h) ?_ ?_ _ h
  · rintro read assign h hread
    obtain rfl : read = some assign := hread
    rfl
  · rintro read h hread
    obtain rfl : read = none := hread
    rfl

/-- The object is an array of at least eight elements. -/
def hasFields : Object → Bool
  | .array elems => decide (8 ≤ elems.length)
  | _ => false

/-- A section without the eight fields is skipped, and the header stays as it was. -/
theorem received_of_not_hasFields {obj : Object} (hf : hasFields obj = false) (h : MessageHeader) :
    convertible M obj = true ∧ received M obj h = h := by
  have hreads : reads M obj = [] := by
    cases obj with
    | array elems =>
      rw [hasFields, decide_eq_false_iff_not, Nat.not_le] at hf
      rw [reads, if_pos hf]
    | _ => rfl
  rw [convertible, received, hreads]
  exact ⟨rfl, rfl⟩

/-- A section with eight fields that all convert replaces the whole header. -/
theorem received_of_hasFields {obj : Object} (hf : hasFields obj = true)
    (hc : convertible M obj = true) : ∃ h₀, ∀ h, received M obj h = h₀ := by
  cases obj with
  | array elems =>
    rw [hasFields, decide_eq_true_iff] at hf
    have hlen : ¬elems.length < 8 := Nat.not_lt.mpr hf
    simp only [convertible, reads, if_neg hlen, Proc.converts, fieldRead, List.all_cons,
      List.all_nil, id_eq, Option.isSome_map, Bool.and_true, Bool.and_eq_true,
      Option.isSome_iff_exists] at hc
    obtain ⟨⟨v₀, h₀⟩, ⟨v₁, h₁⟩, ⟨v₂, h₂⟩, ⟨v₃, h₃⟩, ⟨v₄, h₄⟩, ⟨v₅, h₅⟩, ⟨v₆, h₆⟩, ⟨v₇, h₇⟩⟩ := hc
    refine ⟨⟨v₀, v₁, v₂, v₃, v₄, v₅, v₆, v₇⟩, fun h => ?_⟩
    simp only [received, reads, if_neg hlen, fieldRead, h₀, h₁, h₂, h₃, h₄, h₅, h₆, h₇,
      Option.map_some, Proc.converted, id_eq, List.foldl_cons, List.foldl_nil]
  | _ => cases hf

end MessageHeader

namespace MessageFrame

variable {μ : Type} [UnorderedMap μ ParameterKey ParameterValue] (M : Codec)

/-! ### The attachment section -/

/-- The elements of an array object. -/
def elemsOf : Object → List Object
  | .array elems => elems
  | _ => []

/-- The attachment that an element stands for, if any, unless its name does not convert. -/
def wireAttachment : Object → Option (Option Attachment)
  | .array (nameObj :: dataObj :: _) =>
    (M.asString nameObj).map fun name =>
      match dataObj with
      | .bin data => some ⟨name, data⟩
      | _ => some ⟨name, []⟩
  | _ => some none

/-- The attachments read off a section before the first name that does not convert. -/
def receivedAttachments (obj : Object) : List Attachment :=
  (Proc.converted (wireAttachment M) (elemsOf obj)).flatMap Option.toList

/-- All names of the section convert. -/
def attachmentsConvertible (obj : Object) : Bool :=
  Proc.converts (wireAttachment M) (elemsOf obj)

variable {M}

/-- Writing to `attachments.back()`. -/
theorem modify_back {α : Type} (l : List α) (a : α) (f : α → α) :
    (l ++ [a]).modify l.length f = l ++ [f a] := by
  induction l with
  | nil => rfl
  | cons b l ih => rw [List.cons_append, List.length_cons, List.modify_succ_cons, ih,
      List.cons_append]

omit [UnorderedMap μ ParameterKey ParameterValue] in
/-- One element: appended, skipped, or rejected before anything is stored. -/
private theorem unpackAttachment_eq (obj : Object) (f : MessageFrame μ) :
    unpackAttachment M obj f =
      match wireAttachment M obj with
      | some read => .returned () { f with attachments := f.attachments ++ read.toList }
      | none => .threw f := by
  match obj with
  | .array [] | .array [_] => simp [unpackAttachment, wireAttachment]
  | .array (nameObj :: dataObj :: rest) =>
    have hlen : ¬(nameObj :: dataObj :: rest).length < 2 := by simp
    simp only [unpackAttachment, if_neg hlen, wireAttachment, Checked.at_zero, Checked.at_succ,
      Proc.eval_ok_bind]
    cases hname : M.asString nameObj with
    | none => rfl
    | some name =>
      rw [Proc.orThrow_some_bind, Proc.modify_bind, Option.map_some]
      cases dataObj with
      | bin data =>
        simp only [Proc.eval_ok_bind, Proc.modify_apply, List.length_append, List.length_singleton,
          Nat.add_sub_cancel, modify_back, Option.toList_some]
      | _ => rfl
  | .nil | .boolean _ | .positiveInteger _ | .negativeInteger _ | .float32 _ | .float64 _
  | .str _ | .bin _ | .map _ | .ext _ _ => simp [unpackAttachment, wireAttachment]

omit [UnorderedMap μ ParameterKey ParameterValue] in
/-- The list of attachments is replaced by the ones received. -/
private theorem unpackAttachments_eq (obj : Object) (f : MessageFrame μ) :
    unpackAttachments M obj f =
      if attachmentsConvertible M obj then
        .returned () { f with attachments := receivedAttachments M obj }
      else .threw { f with attachments := receivedAttachments M obj } := by
  have hloop := Proc.forEach_converts (f := wireAttachment M) (x := unpackAttachment M)
    (fun l => ({ f with attachments := l } : MessageFrame μ)) (fun l read => l ++ read.toList)
    (fun elem read l he => by rw [unpackAttachment_eq, he])
    (fun elem l he => by rw [unpackAttachment_eq, he]) (elemsOf obj) []
  rw [List.foldl_append_eq_append, List.nil_append, ← List.flatMap_def] at hloop
  unfold unpackAttachments
  rw [Proc.modify_bind]
  cases obj with
  | array elems => exact hloop
  | _ => rfl

/-! ### The three sections together -/

variable (M)

/-- The header, parameter and attachment sections of a buffer. There are none if the buffer is
null or empty, does not parse, or is not an array of at least three elements. -/
def sections (data : Option ByteString) : Option (Object × Object × Object) :=
  match data with
  | none => none
  | some bytes =>
    if bytes.length = 0 then none
    else
      match M.unpack bytes with
      | some (.array (headerObj :: parametersObj :: attachmentsObj :: _)) =>
        some (headerObj, parametersObj, attachmentsObj)
      | _ => none

/-- How a call of `deserialize` ends: with nothing decoded, at a field of the header, at an
entry of the parameters, or in the attachments, with everything decoded before it in place. -/
inductive Deserialized (data : Option ByteString) (f : MessageFrame μ) :
    Bool → MessageFrame μ → Prop
  | rejected (hs : sections M data = none) : Deserialized data f false f
  | header {headerObj parametersObj attachmentsObj : Object}
      (hs : sections M data = some (headerObj, parametersObj, attachmentsObj))
      (hh : MessageHeader.convertible M headerObj = false) :
    Deserialized data f false { f with header := MessageHeader.received M headerObj f.header }
  | parameters {headerObj parametersObj attachmentsObj : Object} {p : HybridMessageMap μ}
      (hs : sections M data = some (headerObj, parametersObj, attachmentsObj))
      (hh : MessageHeader.convertible M headerObj = true)
      (hp : HybridMessageMap.convertible M parametersObj = false)
      (hu : HybridMessageMap.Unpacked M parametersObj f.parameters p) :
    Deserialized data f false
      { f with header := MessageHeader.received M headerObj f.header, parameters := p }
  | attachments {headerObj parametersObj attachmentsObj : Object} {p : HybridMessageMap μ}
      (hs : sections M data = some (headerObj, parametersObj, attachmentsObj))
      (hh : MessageHeader.convertible M headerObj = true)
      (hp : HybridMessageMap.convertible M parametersObj = true)
      (hu : HybridMessageMap.Unpacked M parametersObj f.parameters p) :
    Deserialized data f (attachmentsConvertible M attachmentsObj)
      { header := MessageHeader.received M headerObj f.header
        parameters := p
        attachments := receivedAttachments M attachmentsObj }

variable {M}

omit [UnorderedMap μ ParameterKey ParameterValue] in
/-- The shape of the root object that has three sections. -/
private theorem sections_some {bytes : ByteString} {headerObj parametersObj : Object}
    {attachmentsObj : Object} {rest : List Object} (hne : bytes.length ≠ 0)
    (hu : M.unpack bytes = some (.array (headerObj :: parametersObj :: attachmentsObj :: rest))) :
    sections M (some bytes) = some (headerObj, parametersObj, attachmentsObj) := by
  simp only [sections, if_neg hne, hu]

variable [LawfulUnorderedMap μ]

/-- The `try` block on a buffer with three sections. -/
private theorem deserializeBody_spec {bytes : ByteString} {headerObj parametersObj : Object}
    {attachmentsObj : Object} {rest : List Object} (hne : bytes.length ≠ 0)
    (hu : M.unpack bytes = some (.array (headerObj :: parametersObj :: attachmentsObj :: rest)))
    (f : MessageFrame μ) :
    ∃ ok f', deserializeBody M bytes f = (if ok then .returned true f' else .threw f') ∧
      Deserialized M (some bytes) f ok f' := by
  have hs := sections_some hne hu
  have hbody : (deserializeBody M bytes : Proc (MessageFrame μ) Bool) = (do
      onHeader (MessageHeader.unpack M headerObj)
      onParameters (HybridMessageMap.unpack M parametersObj)
      unpackAttachments M attachmentsObj
      pure true) := by
    unfold deserializeBody
    rw [hu]
    rfl
  rw [hbody]
  have hheader := MessageHeader.unpack_spec M headerObj f.header
  cases hh : MessageHeader.convertible M headerObj with
  | false =>
    rw [hh, if_neg (by simp)] at hheader
    -- the header throws: the fields before the bad one are replaced, and nothing else
    exact ⟨false, _, Proc.bind_of_threw (Proc.onField_of_threw hheader) _, .header hs hh⟩
  | true =>
    rw [hh, if_pos rfl] at hheader
    have honHeader : onHeader (MessageHeader.unpack M headerObj) f =
        .returned () { f with header := MessageHeader.received M headerObj f.header } :=
      Proc.onField_of_returned hheader
    rw [Proc.bind_of_returned honHeader]
    obtain ⟨p, hparams, hunpacked⟩ := HybridMessageMap.unpack_spec M parametersObj f.parameters
    cases hp : HybridMessageMap.convertible M parametersObj with
    | false =>
      rw [hp, if_neg (by simp)] at hparams
      have honParams : onParameters (HybridMessageMap.unpack M parametersObj)
          { f with header := MessageHeader.received M headerObj f.header } =
          .threw { f with header := MessageHeader.received M headerObj f.header,
                          parameters := p } :=
        Proc.onField_of_threw hparams
      -- the parameters throw: the new header stands, the attachments are the old ones
      exact ⟨false, _, Proc.bind_of_threw honParams _, .parameters hs hh hp hunpacked⟩
    | true =>
      rw [hp, if_pos rfl] at hparams
      have honParams : onParameters (HybridMessageMap.unpack M parametersObj)
          { f with header := MessageHeader.received M headerObj f.header } =
          .returned () { f with header := MessageHeader.received M headerObj f.header,
                                parameters := p } :=
        Proc.onField_of_returned hparams
      rw [Proc.bind_of_returned honParams]
      refine ⟨attachmentsConvertible M attachmentsObj, _, ?_, .attachments hs hh hp hunpacked⟩
      rw [Proc.bind_apply, unpackAttachments_eq]
      cases attachmentsConvertible M attachmentsObj <;> rfl

/-- **What `deserialize` does** with any buffer, from any frame: it returns, and the frame has
changed as `Deserialized` says. -/
theorem deserialize_spec (M : Codec) (data : Option ByteString) (f : MessageFrame μ) :
    ∃ ok f', deserialize M data f = .returned ok f' ∧ Deserialized M data f ok f' := by
  cases data with
  | none => exact ⟨false, f, rfl, .rejected rfl⟩
  | some bytes =>
    by_cases hne : bytes.length = 0
    · exact ⟨false, f, by rw [deserialize, if_pos hne]; rfl,
        .rejected (by rw [sections, if_pos hne])⟩
    · rw [deserialize, if_neg hne]
      -- a buffer without the three sections is rejected before anything is decoded
      have hreject : ∀ root, M.unpack bytes = root →
          (∀ a b c rest, root ≠ some (.array (a :: b :: c :: rest))) →
          ∃ ok f', Proc.tryCatch (deserializeBody M bytes) (pure false) f = .returned ok f' ∧
            Deserialized M (some bytes) f ok f' := by
        intro root hroot hno
        refine ⟨false, f, ?_, .rejected ?_⟩
        · unfold deserializeBody
          rw [hroot]
          rcases root with _ | obj
          · rfl
          · cases obj with
            | array elems =>
              rcases elems with _ | ⟨a, _ | ⟨b, _ | ⟨c, rest⟩⟩⟩
              · rfl
              · rfl
              · rfl
              · exact absurd rfl (hno a b c rest)
            | _ => rfl
        · simp only [sections, if_neg hne, hroot]
      by_cases hroot : ∃ a b c rest, M.unpack bytes = some (.array (a :: b :: c :: rest))
      · obtain ⟨a, b, c, rest, hroot⟩ := hroot
        obtain ⟨ok, f', hbody, hdes⟩ := deserializeBody_spec hne hroot f
        refine ⟨ok, f', ?_, hdes⟩
        cases ok with
        | false => rw [Proc.tryCatch_of_threw hbody]; rfl
        | true => exact Proc.tryCatch_of_returned hbody _
      · exact hreject _ rfl fun a b c rest he => hroot ⟨a, b, c, rest, he⟩

/-! ### Accepted buffers -/

/-- The buffer has the three sections and all of them convert. -/
def accepts (M : Codec) (data : Option ByteString) : Bool :=
  match sections M data with
  | some (headerObj, parametersObj, attachmentsObj) =>
    MessageHeader.convertible M headerObj && HybridMessageMap.convertible M parametersObj &&
      attachmentsConvertible M attachmentsObj
  | none => false

omit [LawfulUnorderedMap μ] in
/-- The result of `deserialize` depends on the buffer alone. -/
theorem Deserialized.ok_eq {data : Option ByteString} {f f' : MessageFrame μ} {ok : Bool}
    (hd : Deserialized M data f ok f') : ok = accepts M data := by
  cases hd with
  | rejected hs => rw [accepts, hs]
  | header hs hh => rw [accepts, hs]; simp [hh]
  | parameters hs hh hp _ => rw [accepts, hs]; simp [hh, hp]
  | attachments hs hh hp _ => rw [accepts, hs]; simp [hh, hp]

omit [LawfulUnorderedMap μ] in
/-- What the frame holds after a buffer has been accepted. -/
theorem Deserialized.of_sections {data : Option ByteString} {f f' : MessageFrame μ}
    {headerObj parametersObj attachmentsObj : Object} (hd : Deserialized M data f true f')
    (hs : sections M data = some (headerObj, parametersObj, attachmentsObj)) :
    f'.header = MessageHeader.received M headerObj f.header ∧
      HybridMessageMap.Unpacked M parametersObj f.parameters f'.parameters ∧
      f'.attachments = receivedAttachments M attachmentsObj := by
  generalize hok : true = ok at hd
  cases hd with
  | rejected _ => cases hok
  | header _ _ => cases hok
  | parameters _ _ _ _ => cases hok
  | attachments hs' _ _ hu =>
    rw [hs] at hs'
    obtain ⟨rfl, rfl, rfl⟩ : _ ∧ _ ∧ _ := by simpa using hs'
    exact ⟨rfl, hu, rfl⟩

end MessageFrame

end MsgFrame
