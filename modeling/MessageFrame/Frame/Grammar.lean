import MessageFrame.Frame.LocalValue

/-!
# The grammar of frames

`deserialize` is lenient where an object has the wrong shape and throws where it has the right
shape but does not convert. `Grammar` states which object trees make a frame, and what each part
of such a tree stands for, without any reference to the decoder: no state, no storage, no order
of evaluation. Only the conversions of the MessagePack library are taken from outside.

`deserialize_grammar` says that the decoder accepts exactly these trees and decodes them as the
grammar says, with every access in bounds, for every receiver. In particular a repeated key
stands for its first value, on both sides of the threshold at which the decoder changes its
storage. What the destructor of the decoder's local value does is left out there, but for the last
part of the statement: the decoder with that value as an object does the same with every buffer in
which no pair lacks its string.
-/

namespace MsgFrame

open Msgpack AssocList

/-! ### The reference -/

namespace Grammar

variable (M : Codec)

/-- A header section: fewer than eight elements, or eight that convert. -/
def header : Object → Bool
  | .array (timestamp :: messageCnt :: sourceId :: targetId :: messageId :: messageType ::
      version :: flags :: _) =>
    (M.asUInt64 timestamp).isSome && (M.asUInt64 messageCnt).isSome &&
      (M.asUInt32 sourceId).isSome && (M.asUInt32 targetId).isSome &&
      (M.asInt32 messageId).isSome && (M.asInt32 messageType).isSome &&
      (M.asUInt16 version).isSome && (M.asUInt16 flags).isSome
  | _ => true

/-- The header that a section stands for, over the header `h` of the receiver. -/
def decodeHeader (h : MessageHeader) : Object → MessageHeader
  | .array (timestamp :: messageCnt :: sourceId :: targetId :: messageId :: messageType ::
      version :: flags :: _) =>
    { timestamp := (M.asUInt64 timestamp).getD h.timestamp
      messageCnt := (M.asUInt64 messageCnt).getD h.messageCnt
      sourceId := (M.asUInt32 sourceId).getD h.sourceId
      targetId := (M.asUInt32 targetId).getD h.targetId
      messageId := (M.asInt32 messageId).getD h.messageId
      messageType := (M.asInt32 messageType).getD h.messageType
      version := (M.asUInt16 version).getD h.version
      flags := (M.asUInt16 flags).getD h.flags }
  | _ => h

/-- A value: no pair, or a pair whose tag is a number and whose payload is what the tag says. -/
def value : Object → Bool
  | .array (tag :: payload :: _) =>
    (M.asUInt8 tag).isSome &&
      (M.asUInt8 tag != some 10 || (M.asInt64 payload).isSome) &&
      (M.asUInt8 tag != some 20 || (M.asDouble payload).isSome) &&
      (M.asUInt8 tag != some 30 || (M.asStringView payload).isSome) &&
      (M.asUInt8 tag != some 40 || (M.asBool payload).isSome)
  | _ => true

/-- The value that an object stands for; what is not a tagged payload is `Unknown`. -/
def decodeValue : Object → ParameterValue
  | .array (tag :: payload :: _) =>
    if M.asUInt8 tag = some 10 then (M.asInt64 payload).elim .unknown .int64
    else if M.asUInt8 tag = some 20 then (M.asDouble payload).elim .unknown .double
    else if M.asUInt8 tag = some 30 then (M.asStringView payload).elim .unknown .string
    else if M.asUInt8 tag = some 40 then (M.asBool payload).elim .unknown .bool
    else .unknown
  | _ => .unknown

/-- A parameter section: no map, or a map from strings to values. -/
def parameters : Object → Bool
  | .map pairs => pairs.all fun pair => (M.asStringView pair.1).isSome && value M pair.2
  | _ => true

/-- The value of a key: that of the first pair with this key. -/
def firstValue (key : ByteString) : Object → Option ParameterValue
  | .map pairs =>
    (pairs.find? fun pair => M.asStringView pair.1 = some key).map fun pair => decodeValue M pair.2
  | _ => none

/-- The bytes of an attachment. -/
def binary : Object → ByteString
  | .bin data => data
  | _ => []

/-- An attachment: no pair, or a pair whose name is a string. -/
def attachment : Object → Bool
  | .array (name :: _ :: _) => (M.asString name).isSome
  | _ => true

/-- The attachment that a pair stands for; what is not a pair stands for none. -/
def decodeAttachment : Object → Option Attachment
  | .array (name :: data :: _) => (M.asString name).map fun s => ⟨s, binary data⟩
  | _ => none

/-- An attachment section: no array, or an array of attachments. -/
def attachments : Object → Bool
  | .array elems => elems.all (attachment M)
  | _ => true

/-- The attachments that a section stands for, in order. -/
def decodeAttachments : Object → List Attachment
  | .array elems => elems.filterMap (decodeAttachment M)
  | _ => []

/-- **A frame**: an array that begins with the three sections. -/
def frame : Object → Bool
  | .array (h :: p :: a :: _) => header M h && parameters M p && attachments M a
  | _ => false

end Grammar

/-! ### Each section -/

section Sections

variable {M : Codec}

namespace MessageHeader

private theorem exists_eight {elems : List Object} (h : 8 ≤ elems.length) :
    ∃ a b c d e f g i rest, elems = a :: b :: c :: d :: e :: f :: g :: i :: rest := by
  match elems, h with
  | a :: b :: c :: d :: e :: f :: g :: i :: rest, _ => exact ⟨a, b, c, d, e, f, g, i, rest, rfl⟩

/-- An object without the eight fields is a header section, and changes nothing. -/
private theorem grammar_of_not_hasFields {obj : Object} (hf : hasFields obj = false)
    (h : MessageHeader) :
    Grammar.header M obj = true ∧ Grammar.decodeHeader M h obj = h := by
  have hshort : ∀ a b c d e f g i rest,
      obj ≠ .array (a :: b :: c :: d :: e :: f :: g :: i :: rest) := by
    rintro a b c d e f g i rest rfl
    simp [hasFields] at hf
  constructor
  · unfold Grammar.header
    split
    · exact absurd rfl (hshort _ _ _ _ _ _ _ _ _)
    · rfl
  · unfold Grammar.decodeHeader
    split
    · exact absurd rfl (hshort _ _ _ _ _ _ _ _ _)
    · rfl

/-- **Header**: the decoder gets through exactly the sections of the grammar. -/
theorem convertible_eq (M : Codec) (obj : Object) : convertible M obj = Grammar.header M obj := by
  cases hf : hasFields obj with
  | false =>
    have hskip := received_of_not_hasFields (M := M) hf { timestamp := 0 }
    have hgrammar := grammar_of_not_hasFields (M := M) hf { timestamp := 0 }
    rw [hskip.1, hgrammar.1]
  | true =>
    cases obj with
    | array elems =>
      rw [hasFields, decide_eq_true_iff] at hf
      obtain ⟨a, b, c, d, e, f, g, i, rest, rfl⟩ := exists_eight hf
      have hlen : ¬(a :: b :: c :: d :: e :: f :: g :: i :: rest).length < 8 := Nat.not_lt.mpr hf
      rw [convertible, reads, if_neg hlen]
      simp [Proc.converts, fieldRead, Grammar.header, Bool.and_assoc]
    | _ => cases hf

/-- **Header**: an accepted section is decoded field by field. -/
theorem received_eq {obj : Object} (hg : Grammar.header M obj = true) (h : MessageHeader) :
    received M obj h = Grammar.decodeHeader M h obj := by
  cases hf : hasFields obj with
  | false =>
    rw [(received_of_not_hasFields hf h).2, (grammar_of_not_hasFields hf h).2]
  | true =>
    cases obj with
    | array elems =>
      rw [hasFields, decide_eq_true_iff] at hf
      obtain ⟨a, b, c, d, e, f, g, i, rest, rfl⟩ := exists_eight hf
      have hlen : ¬(a :: b :: c :: d :: e :: f :: g :: i :: rest).length < 8 := Nat.not_lt.mpr hf
      simp only [Grammar.header, Bool.and_eq_true, Option.isSome_iff_exists] at hg
      obtain ⟨⟨⟨⟨⟨⟨⟨⟨v₀, h₀⟩, v₁, h₁⟩, v₂, h₂⟩, v₃, h₃⟩, v₄, h₄⟩, v₅, h₅⟩, v₆, h₆⟩, v₇, h₇⟩ := hg
      rw [received, reads, if_neg hlen]
      simp [fieldRead, Proc.converted, Grammar.decodeHeader, h₀, h₁, h₂, h₃, h₄, h₅, h₆, h₇]
    | _ => cases hf

end MessageHeader

/-- **Values**: `unpack` throws unless the object is a value, and reads what it stands for. -/
theorem ParameterValue.unpack_eq (M : Codec) (obj : Object) : ParameterValue.unpack M obj =
    if Grammar.value M obj then some (Grammar.decodeValue M obj) else none := by
  unfold ParameterValue.unpack
  split
  · rename_i tag payload rest
    cases htag : M.asUInt8 tag with
    | none => simp [Grammar.value, htag]
    | some raw =>
      by_cases h₁ : raw = 10
      · subst h₁
        cases hp : M.asInt64 payload <;>
          simp [Grammar.value, Grammar.decodeValue, ValueType.ofRaw, htag, hp]
      · by_cases h₂ : raw = 20
        · subst h₂
          cases hp : M.asDouble payload <;>
            simp [Grammar.value, Grammar.decodeValue, ValueType.ofRaw, htag, hp]
        · by_cases h₃ : raw = 30
          · subst h₃
            cases hp : M.asStringView payload <;>
              simp [Grammar.value, Grammar.decodeValue, ValueType.ofRaw, htag, hp]
          · by_cases h₄ : raw = 40
            · subst h₄
              cases hp : M.asBool payload <;>
                simp [Grammar.value, Grammar.decodeValue, ValueType.ofRaw, htag, hp]
            · simp [Grammar.value, Grammar.decodeValue, ValueType.ofRaw, htag, h₁, h₂, h₃, h₄]
  · rename_i hne
    have hvalue : Grammar.value M obj = true := by
      unfold Grammar.value
      split
      · exact absurd rfl (hne _ _ _)
      · rfl
    have hdecode : Grammar.decodeValue M obj = .unknown := by
      unfold Grammar.decodeValue
      split
      · exact absurd rfl (hne _ _ _)
      · rfl
    rw [hvalue, hdecode, if_pos rfl]

namespace HybridMessageMap

/-- A pair is stored if its key is a string and its value is one. -/
private theorem wireEntry_eq (M : Codec) (pair : Object × Object) : wireEntry M pair =
    if Grammar.value M pair.2 then
      (M.asStringView pair.1).map fun key => (⟨key⟩, Grammar.decodeValue M pair.2)
    else none := by
  rw [wireEntry, ParameterValue.unpack_eq]
  cases M.asStringView pair.1 <;> cases Grammar.value M pair.2 <;> rfl

/-- **Parameters**: the decoder gets through exactly the sections of the grammar. -/
theorem convertible_eq (M : Codec) (obj : Object) :
    convertible M obj = Grammar.parameters M obj := by
  cases obj with
  | map pairs =>
    have hpair : ∀ pair : Object × Object, (wireEntry M pair).isSome =
        ((M.asStringView pair.1).isSome && Grammar.value M pair.2) := by
      intro pair
      rw [wireEntry_eq]
      cases Grammar.value M pair.2 <;> simp
    simp only [convertible, pairsOf, Proc.converts, hpair, Grammar.parameters]
  | _ => rfl

/-- **Parameters**: of an accepted section, a key is found with the value of its first pair. -/
theorem lookup_received {obj : Object} (hg : Grammar.parameters M obj = true) (key : ByteString) :
    (received M obj).lookup ⟨key⟩ = Grammar.firstValue M key obj := by
  cases obj with
  | map pairs =>
    rw [received, pairsOf, Grammar.firstValue]
    rw [Grammar.parameters] at hg
    induction pairs with
    | nil => rfl
    | cons pair pairs ih =>
      rw [List.all_cons, Bool.and_eq_true, Bool.and_eq_true, Option.isSome_iff_exists] at hg
      obtain ⟨⟨⟨k, hk⟩, hvalue⟩, hrest⟩ := hg
      have hentry : wireEntry M pair = some (⟨k⟩, Grammar.decodeValue M pair.2) := by
        rw [wireEntry_eq, hvalue, if_pos rfl, hk, Option.map_some]
      rw [Proc.converted, hentry, lookup_cons, List.find?_cons, hk, ih hrest]
      by_cases heq : key = k
      · simp [heq]
      · have hne : ¬k = key := fun h => heq h.symm
        simp [heq, hne]
  | _ => rfl

end HybridMessageMap

namespace MessageFrame

/-- The attachment of a pair, if its name converts. -/
private theorem wireAttachment_pair (M : Codec) (name data : Object) (rest : List Object) :
    wireAttachment M (.array (name :: data :: rest)) =
      (M.asString name).map fun s => some ⟨s, Grammar.binary data⟩ := by
  rw [wireAttachment]
  congr 1
  funext s
  cases data <;> rfl

/-- **Attachments**: an element is read as the grammar says. -/
private theorem wireAttachment_eq (M : Codec) (elem : Object) : wireAttachment M elem =
    if Grammar.attachment M elem then some (Grammar.decodeAttachment M elem) else none := by
  by_cases hpair : ∃ name data rest, elem = .array (name :: data :: rest)
  · obtain ⟨name, data, rest, rfl⟩ := hpair
    rw [wireAttachment_pair, Grammar.attachment, Grammar.decodeAttachment]
    cases M.asString name <;> rfl
  · have hskip : wireAttachment M elem = some none := by
      unfold wireAttachment
      split
      · exact absurd ⟨_, _, _, rfl⟩ hpair
      · rfl
    have hattachment : Grammar.attachment M elem = true := by
      unfold Grammar.attachment
      split
      · exact absurd ⟨_, _, _, rfl⟩ hpair
      · rfl
    have hdecode : Grammar.decodeAttachment M elem = none := by
      unfold Grammar.decodeAttachment
      split
      · exact absurd ⟨_, _, _, rfl⟩ hpair
      · rfl
    rw [hskip, hattachment, hdecode, if_pos rfl]

/-- **Attachments**: the decoder gets through exactly the sections of the grammar. -/
theorem attachmentsConvertible_eq (M : Codec) (obj : Object) :
    attachmentsConvertible M obj = Grammar.attachments M obj := by
  cases obj with
  | array elems =>
    have helem : ∀ elem, (wireAttachment M elem).isSome = Grammar.attachment M elem := by
      intro elem
      rw [wireAttachment_eq]
      cases Grammar.attachment M elem <;> rfl
    simp only [attachmentsConvertible, elemsOf, Proc.converts, helem, Grammar.attachments]
  | _ => rfl

/-- **Attachments**: an accepted section stands for one attachment for each of its pairs. -/
theorem receivedAttachments_eq {obj : Object} (hg : Grammar.attachments M obj = true) :
    receivedAttachments M obj = Grammar.decodeAttachments M obj := by
  cases obj with
  | array elems =>
    rw [receivedAttachments, elemsOf, Grammar.decodeAttachments]
    rw [Grammar.attachments] at hg
    induction elems with
    | nil => rfl
    | cons elem elems ih =>
      rw [List.all_cons, Bool.and_eq_true] at hg
      have hread : wireAttachment M elem = some (Grammar.decodeAttachment M elem) := by
        rw [wireAttachment_eq, hg.1, if_pos rfl]
      rw [Proc.converted, hread, List.flatMap_cons, ih hg.2, List.filterMap_cons]
      cases Grammar.decodeAttachment M elem <;> rfl
  | _ => rfl

/-! ### The frame -/

/-- The sections are the first three elements of the root. -/
private theorem exists_root {bytes : ByteString} {h p a : Object}
    (hs : sections M (some bytes) = some (h, p, a)) :
    ∃ rest, M.unpack bytes = some (.array (h :: p :: a :: rest)) := by
  rw [sections] at hs
  split_ifs at hs
  split at hs
  · rename_i hroot
    cases hs
    exact ⟨_, hroot⟩
  · cases hs

/-- A tree is accepted if it has the three sections and they convert. -/
private theorem accepts_eq {bytes : ByteString} (hne : bytes.length ≠ 0) :
    accepts M (some bytes) = true ↔
      ∃ t, M.unpack bytes = some t ∧ Grammar.frame M t = true := by
  by_cases hroot : ∃ h p a rest, M.unpack bytes = some (.array (h :: p :: a :: rest))
  · obtain ⟨h, p, a, rest, hroot⟩ := hroot
    have hs : sections M (some bytes) = some (h, p, a) := by
      simp only [sections, if_neg hne, hroot]
    simp [accepts, hs, hroot, Grammar.frame, MessageHeader.convertible_eq,
      HybridMessageMap.convertible_eq, attachmentsConvertible_eq]
  · have hs : sections M (some bytes) = none := by
      simp only [sections, if_neg hne]
      split
      · rename_i heq
        exact absurd ⟨_, _, _, _, heq⟩ hroot
      · rfl
    have hframe : ∀ t, M.unpack bytes = some t → Grammar.frame M t = false := by
      intro t ht
      unfold Grammar.frame
      split
      · exact absurd ⟨_, _, _, _, ht⟩ hroot
      · rfl
    rw [accepts, hs]
    constructor
    · intro hfalse
      cases hfalse
    · rintro ⟨t, ht, haccept⟩
      rw [hframe t ht] at haccept
      cases haccept

end MessageFrame

end Sections

namespace MessageFrame

variable {μ : Type} [UnorderedMap μ ParameterKey ParameterValue] [LawfulUnorderedMap μ]

/-- **The decoder is the grammar.** With any MessagePack library that finds no object in an empty
buffer, and for every receiver and every buffer: decoding returns, without an access out of
bounds; the result is `true` exactly if the tree in the buffer is a frame; and then the receiver
holds the header that the first section stands for, finds under every key the first value that
the second section has for it, and holds the attachments of the third, in order. With the local
value of the decoder as an object all of this is so unless a pair of the buffer lacks its string;
then its destructor is undefined. -/
theorem deserialize_grammar (M : Codec) (hempty : M.unpack [] = none) (bytes : ByteString)
    (r : MessageFrame μ) :
    ∃ ok r', deserialize M (some bytes) r = .returned ok r' ∧
      (ok = true ↔ ∃ t, M.unpack bytes = some t ∧ Grammar.frame M t = true) ∧
      (ok = true → ∃ h p a rest, M.unpack bytes = some (.array (h :: p :: a :: rest)) ∧
        r'.header = Grammar.decodeHeader M r.header h ∧
        (∀ key, r'.parameters.findView key = .ok (Grammar.firstValue M key p)) ∧
        (∀ device param,
          r'.find device param = .ok (Grammar.firstValue M (composeKey device param) p)) ∧
        (∀ flatKey, r'.findFlat flatKey = .ok (Grammar.firstValue M flatKey.view p)) ∧
        r'.attachments = Grammar.decodeAttachments M a) ∧
      ∀ (throws : ℕ → Bool) (w : World),
        (Scoped.BufferLacksString M throws w.objects.length (some bytes) →
          ∃ e, Scoped.deserialize M throws (some bytes) (w, r) = .undefined e) ∧
        (¬Scoped.BufferLacksString M throws w.objects.length (some bytes) → ∃ w', Grown w w' ∧
          Scoped.deserialize M throws (some bytes) (w, r) = .returned ok (w', r')) := by
  obtain ⟨ok, r', hexec, hd⟩ := deserialize_spec M (some bytes) r
  refine ⟨ok, r', hexec, ?_, ?_, fun throws w => ⟨Scoped.deserialize_undefined, fun hnot => ?_⟩⟩
  · by_cases hzero : bytes.length = 0
    · -- an empty buffer is rejected before the library sees it
      obtain rfl := List.length_eq_zero_iff.mp hzero
      rw [hd.ok_eq, hempty]
      simp [accepts, sections]
    · rw [hd.ok_eq]
      exact accepts_eq hzero
  · rintro rfl
    have haccepts : accepts M (some bytes) = true := hd.ok_eq.symm
    obtain ⟨⟨h, p, a⟩, hs⟩ : ∃ s, sections M (some bytes) = some s := by
      cases hs : sections M (some bytes) with
      | none =>
        rw [accepts, hs] at haccepts
        cases haccepts
      | some s => exact ⟨s, rfl⟩
    simp only [accepts, hs, MessageHeader.convertible_eq, HybridMessageMap.convertible_eq,
      attachmentsConvertible_eq, Bool.and_eq_true] at haccepts
    obtain ⟨⟨hh, hp⟩, ha⟩ := haccepts
    obtain ⟨rest, hroot⟩ := exists_root hs
    obtain ⟨hheader, hu, hattach⟩ := hd.of_sections hs
    have hlookup : ∀ key, r'.parameters.entries.lookup ⟨key⟩ = Grammar.firstValue M key p := by
      intro key
      rw [hu.lookup, HybridMessageMap.lookup_received hp]
    refine ⟨h, p, a, rest, hroot, ?_, fun key => ?_, fun device param => ?_, fun flatKey => ?_, ?_⟩
    · rw [hheader, MessageHeader.received_eq hh]
    · rw [HybridMessageMap.findView_eq hu.inv, hlookup]
    · have hfind := HybridMessageMap.find_eq hu.inv device param
      rw [hlookup] at hfind
      exact hfind
    · have hfind := HybridMessageMap.findFlat_eq hu.inv flatKey
      rw [hlookup] at hfind
      exact hfind
    · rw [hattach, receivedAttachments_eq ha]
  · obtain ⟨w', hgrown, hscoped⟩ := Scoped.deserialize_accompanies (f := r) hnot
    rw [hexec] at hscoped
    exact ⟨w', hgrown, hscoped⟩

/-- A key that comes twice, behind a header section that is no array and in front of an attachment
that is no pair: the buffer is accepted, and the key has its first value. -/
theorem deserialize_grammar_duplicate :
    ∃ r' : MessageFrame (ListMap ParameterKey ParameterValue),
      deserialize Wire.codec (some [0x93, 0xc0, 0x82, 0xa1, 97, 0x92, 10, 5, 0xa1, 97, 0x92, 10, 6,
        0x91, 0x91, 1]) (construct { timestamp := 9 } {}) = .returned true r' ∧
      r'.parameters.findView [97] = .ok (some (.int64 5)) ∧ r'.attachments = [] := by
  obtain ⟨ok, r', hexec, -, hread, -⟩ := deserialize_grammar
    (μ := ListMap ParameterKey ParameterValue) Wire.codec (by decide)
    [0x93, 0xc0, 0x82, 0xa1, 97, 0x92, 10, 5, 0xa1, 97, 0x92, 10, 6, 0x91, 0x91, 1]
    (construct { timestamp := 9 } {})
  obtain rfl : ok = true := by cases hexec; rfl
  obtain ⟨h, p, a, rest, hroot, -, hfind, -, -, hattach⟩ := hread rfl
  cases hroot
  exact ⟨r', hexec, hfind [97], hattach⟩

end MessageFrame

end MsgFrame
