import MessageFrame.Frame.Layout
import MessageFrame.Frame.Uniqueness
import MessageFrame.MessagePack.WireLawful

/-!
# A foreign reader of serialized frames

A program in another language has a MessagePack library but not this one. It takes the root
object apart by position, splits every key of the parameter map at its first separator, and takes
tag and payload out of every value: `readParameters` is the loop of the documented reader.

Splitting at the first separator undoes the composition of a key for every parameter name, also
one that contains separators, as long as the device name has none (`splitKey_eq_some`). So for a
frame that was filled through the API (`ApiFilled`) the reader ends up with the map that `find`
shows.
-/

namespace MsgFrame

open Msgpack AssocList

/-! ### The reader -/

/-- `flat_key.split(SEPARATOR, 1)`, if it has two parts. -/
def splitKey : ByteString → Option (ByteString × ByteString)
  | [] => none
  | c :: cs =>
    if c = separator then some ([], cs)
    else (splitKey cs).map fun parts => (c :: parts.1, parts.2)

/-- One round of the loop of the reader: the key is split, the value has two elements. -/
def readPair : Object × Object → Option ((ByteString × ByteString) × (Object × Object))
  | (.str flatKey, .array [tag, value]) =>
    (splitKey flatKey).map fun parts => (parts, (tag, value))
  | _ => none

/-- The loop of the reader over `parameters.items()`. -/
def readParameters : Object → Option (List ((ByteString × ByteString) × (Object × Object)))
  | .map pairs => pairs.mapM readPair
  | _ => none

/-- **The first separator** is the one that composition has put behind the device. -/
theorem splitKey_eq_some {key device param : ByteString} :
    splitKey key = some (device, param) ↔ separator ∉ device ∧ key = composeKey device param := by
  induction key generalizing device with
  | nil => simp [splitKey, composeKey]
  | cons c cs ih =>
    rw [splitKey]
    split_ifs with hc
    · constructor
      · intro h
        cases h
        exact ⟨List.not_mem_nil, by rw [hc]; rfl⟩
      · rintro ⟨hdevice, hkey⟩
        cases device with
        | nil =>
          obtain ⟨-, rfl⟩ := List.cons.inj hkey
          rfl
        | cons d ds =>
          obtain ⟨rfl, -⟩ := List.cons.inj hkey
          exact absurd (hc ▸ List.mem_cons_self) hdevice
    · constructor
      · intro h
        obtain ⟨⟨ds, p⟩, hsplit, heq⟩ := Option.map_eq_some_iff.mp h
        cases heq
        obtain ⟨hds, rfl⟩ := ih.mp hsplit
        exact ⟨fun hmem => (List.mem_cons.mp hmem).elim (fun h => hc h.symm) hds, rfl⟩
      · rintro ⟨hdevice, hkey⟩
        cases device with
        | nil => exact absurd (List.cons.inj hkey).1 hc
        | cons d ds =>
          obtain ⟨rfl, hrest⟩ := List.cons.inj hkey
          have hds : separator ∉ ds := fun hmem => hdevice (List.mem_cons_of_mem _ hmem)
          rw [ih.mpr ⟨hds, hrest⟩, Option.map_some]

theorem splitKey_composeKey {device : ByteString} (h : separator ∉ device) (param : ByteString) :
    splitKey (composeKey device param) = some (device, param) := splitKey_eq_some.mpr ⟨h, rfl⟩

/-- Every composed key can be split, at the first separator it has. -/
theorem exists_splitKey (device param : ByteString) :
    ∃ parts, splitKey (composeKey device param) = some parts := by
  induction device with
  | nil => exact ⟨([], param), splitKey_eq_some.mpr ⟨List.not_mem_nil, rfl⟩⟩
  | cons c cs ih =>
    obtain ⟨parts, hparts⟩ := ih
    have hcons : composeKey (c :: cs) param = c :: composeKey cs param := rfl
    rw [hcons, splitKey, hparts]
    split_ifs
    · exact ⟨_, rfl⟩
    · exact ⟨_, rfl⟩

/-! ### Frames filled through the API -/

namespace HybridMessageMap

variable {μ : Type} [UnorderedMap μ ParameterKey ParameterValue]

/-- All keys are different, and each is composed of a device and a parameter. -/
structure ComposedKeys (m : HybridMessageMap μ) : Prop where
  inv : m.Inv
  nodup : (keys m.entries).Nodup
  composed : ∀ k ∈ keys m.entries, ∃ device param, k.fullKey = composeKey device param

variable [LawfulUnorderedMap μ]

/-- A call that inserts has a composed key. -/
theorem composed_of_op (c : MapCall) {key : ByteString} {val : ParameterValue}
    (hop : c.op = .insert key val ∨ c.op = .upsert key val) :
    ∃ device param, key = composeKey device param := by
  cases c with
  | add device param v | set device param v =>
    rcases hop with hop | hop <;> cases hop
    exact ⟨device, param, rfl⟩
  | addFlat flatKey v | setFlat flatKey v =>
    rcases hop with hop | hop <;> cases hop
    exact flatKey.composed
  | _ => rcases hop with hop | hop <;> cases hop

/-- **One call**, with `add` on an absent key, keeps the keys composed and different. -/
theorem ComposedKeys.call {m m' : HybridMessageMap μ} {c : MapCall} {r : Reply}
    (h : ComposedKeys m) (hadd : AddsAbsent c m) (he : Effect m c.op r m') : ComposedKeys m' := by
  have habsent : ∀ key val, c.op = .insert key val → ⟨key⟩ ∉ keys m.entries := by
    intro key val hop
    have hfind := hadd key val hop
    rwa [findView_eq h.inv, Except.ok.injEq, lookup_eq_none] at hfind
  refine ⟨he.inv h.inv, he.nodup h.nodup habsent, ?_⟩
  have hins : ∀ {key val m''}, c.op = .insert key val ∨ c.op = .upsert key val →
      ⟨key⟩ ∉ keys m.entries → Inserted m ⟨key⟩ val m'' →
      ∀ k ∈ keys m''.entries, ∃ device param, k.fullKey = composeKey device param := by
    intro key val m'' hop hnot hins k hk
    have hperm := hins.perm (nodup_keys_append_singleton h.nodup hnot val)
    rw [(keys_perm hperm).mem_iff, keys_append, List.mem_append] at hk
    rcases hk with hk | hk
    · exact h.composed k hk
    · obtain rfl := List.mem_singleton.mp hk
      exact composed_of_op c hop
  have has : ∀ {key val m''}, Assigned m ⟨key⟩ val m'' →
      ∀ k ∈ keys m''.entries, ∃ device param, k.fullKey = composeKey device param := by
    intro key val m'' has k hk
    rw [has.entries, keys_replaceFirst] at hk
    exact h.composed k hk
  generalize hop : c.op = op at he
  cases he with
  | insert hi => exact hins (.inl hop) (habsent _ _ hop) hi
  | upsertOld _ ha => exact has ha
  | upsertNew hnot hi => exact hins (.inr hop) hnot hi
  | replaceOld _ ha => exact has ha
  | replaceMissing _ => exact h.composed
  | lookup => exact h.composed
  | clear =>
    rw [entries_ofConfig]
    exact fun k hk => absurd hk List.not_mem_nil

end HybridMessageMap

namespace MessageFrame

variable {μ : Type} [UnorderedMap μ ParameterKey ParameterValue]

/-- The frames a client can build in which every parameter was inserted through the API, with
`add` on absent keys only: a frame without parameters, after any calls on its parameters, after
any other call that leaves its parameters alone, and moved into another frame. -/
inductive ApiFilled (M : Codec) : MessageFrame μ → Prop
  | empty {f : MessageFrame μ} : Reachable M f → f.visits = [] → ApiFilled M f
  | parameters {f f' : MessageFrame μ} {r : Reply} (call : MapCall) : ApiFilled M f →
    HybridMessageMap.AddsAbsent call f.parameters →
    FrameCall.exec M (.parameters call) f = .returned r f' → ApiFilled M f'
  | other {f f' : MessageFrame μ} {r : Reply} (c : FrameCall) : ApiFilled M f →
    c.exec M f = .returned r f' → f'.parameters = f.parameters → ApiFilled M f'
  | moveConstruct {f : MessageFrame μ} : ApiFilled M f → ApiFilled M (moveConstruct f).1
  | moveAssign {f g : MessageFrame μ} : ApiFilled M f → Reachable M g →
    ApiFilled M (moveAssign g f).1

variable [LawfulUnorderedMap μ] {M : Codec} {same : Double → Double → Prop}

/-- The keys of a frame filled through the API. -/
theorem ApiFilled.composedKeys {f : MessageFrame μ} (hf : ApiFilled M f) :
    f.parameters.ComposedKeys := by
  induction hf with
  | empty hreach hvisits =>
    rw [visits_parameters, HybridMessageMap.visits_eq, List.map_eq_nil_iff] at hvisits
    refine ⟨hreach.inv, ?_, ?_⟩
    · rw [hvisits]
      exact List.nodup_nil
    · rw [hvisits]
      exact fun k hk => absurd hk List.not_mem_nil
  | parameters call _ hadd hexec ih =>
    obtain ⟨r, f', hexec', heff⟩ := FrameCall.exec_spec M ih.inv (.parameters call)
    rw [hexec] at hexec'
    cases hexec'
    cases heff with
    | parameters heff => exact ih.call hadd heff
  | other _ _ _ hsame ih => rwa [hsame]
  | moveConstruct _ ih =>
    exact ⟨ih.inv.with_cfg {}, ih.nodup, ih.composed⟩
  | @moveAssign f g _ _ ih =>
    exact ⟨ih.inv.with_cfg g.parameters.cfg, ih.nodup, ih.composed⟩

/-! ### What the reader recovers -/

/-- What the reader has for an entry: a device without separator and a parameter of which the key
is composed, and the tag and the payload of the value. -/
def ReadAs (M : Codec) (same : Double → Double → Prop) (e : ParameterKey × ParameterValue)
    (t : (ByteString × ByteString) × (Object × Object)) : Prop :=
  separator ∉ t.1.1 ∧ e.1.fullKey = composeKey t.1.1 t.1.2 ∧
    ParameterValue.Tagged M same e.2 (.array [t.2.1, t.2.2])

/-- The reader gets through the pairs of composed keys. -/
private theorem readPairs_eq {l : List (ParameterKey × ParameterValue)}
    {pairs : List (Object × Object)}
    (h : List.Forall₂ (HybridMessageMap.PairOf M same) l pairs)
    (hcomposed : ∀ k ∈ keys l, ∃ device param, k.fullKey = composeKey device param) :
    ∃ read, pairs.mapM readPair = some read ∧ List.Forall₂ (ReadAs M same) l read := by
  induction h with
  | nil => exact ⟨[], rfl, .nil⟩
  | @cons e pair l pairs hpair _ ih =>
    obtain ⟨device, param, hkey⟩ := hcomposed e.1 List.mem_cons_self
    obtain ⟨parts, hsplit⟩ := exists_splitKey device param
    obtain ⟨hfree, hparts⟩ := splitKey_eq_some.mp hsplit
    obtain ⟨read, hread, hrest⟩ := ih fun k hk => hcomposed k (List.mem_cons_of_mem _ hk)
    obtain ⟨tag, value, hvalue⟩ := hpair.tagged.eq_pair
    have hpair' : readPair pair = some (parts, (tag, value)) := by
      obtain ⟨keyObj, valueObj⟩ := pair
      obtain rfl : keyObj = .str e.1.fullKey := hpair.key
      obtain rfl : valueObj = .array [tag, value] := hvalue
      rw [readPair, hkey, hsplit, Option.map_some]
    refine ⟨(parts, (tag, value)) :: read, ?_, .cons ⟨hfree, hkey.trans hparts, ?_⟩ hrest⟩
    · rw [List.mapM_cons, hpair', hread]
      rfl
    · have htagged := hpair.tagged
      rwa [hvalue] at htagged

/-- A device without a separator: the reader and the container look for the same entry. -/
private theorem lookup_read {l : List (ParameterKey × ParameterValue)}
    {read : List ((ByteString × ByteString) × (Object × Object))}
    (h : List.Forall₂ (ReadAs M same) l read)
    {device : ByteString} (hdevice : separator ∉ device) (param : ByteString) :
    Option.Rel (fun v t => ParameterValue.Tagged M same v (.array [t.1, t.2]))
      (l.lookup ⟨composeKey device param⟩) (read.lookup (device, param)) := by
  induction h with
  | nil => exact .none
  | @cons e t l read ht _ ih =>
    obtain ⟨hfree, hkey, htagged⟩ := ht
    have hiff : (⟨composeKey device param⟩ : ParameterKey) = e.1 ↔ (device, param) = t.1 := by
      constructor
      · rintro heq
        have hsplit := splitKey_composeKey hdevice param
        have hsame : composeKey device param = composeKey t.1.1 t.1.2 := by rw [← hkey, ← heq]
        rw [hsame, splitKey_composeKey hfree] at hsplit
        exact (Option.some.inj hsplit).symm
      · rintro heq
        rw [← heq] at hkey
        obtain ⟨⟨key⟩, v⟩ := e
        rw [← hkey]
    rw [lookup_cons, List.lookup_cons]
    by_cases heq : (device, param) = t.1
    · rw [if_pos (hiff.mpr heq), heq, beq_self_eq_true]
      exact .some htagged
    · rw [if_neg fun h => heq (hiff.mp h), beq_false_of_ne heq]
      exact ih

/-- Different keys are split into different pairs. -/
private theorem nodup_read {l : List (ParameterKey × ParameterValue)}
    {read : List ((ByteString × ByteString) × (Object × Object))}
    (h : List.Forall₂ (ReadAs M same) l read)
    (hnd : (keys l).Nodup) : (keys read).Nodup ∧ ∀ k ∈ keys read, separator ∉ k.1 := by
  have hkeys : keys l = (keys read).map fun k => ⟨composeKey k.1 k.2⟩ := by
    induction h with
    | nil => rfl
    | @cons e t l read ht _ ih =>
      obtain ⟨⟨key⟩, v⟩ := e
      obtain rfl : key = composeKey t.1.1 t.1.2 := ht.2.1
      rw [keys_cons, keys_cons, List.map_cons, ih (List.nodup_cons.mp hnd).2]
  constructor
  · rw [hkeys] at hnd
    exact hnd.of_map
  · clear hkeys hnd
    induction h with
    | nil => exact fun k hk => absurd hk List.not_mem_nil
    | cons ht _ ih => exact List.forall_mem_cons.mpr ⟨ht.1, ih⟩

/-- **The layout serves a foreign reader.** With any lawful MessagePack library, a frame filled
through the API that fits the wire is serialized, whatever the buffer held, into the encoding of
one object and nothing else: an array of the eight header fields, of a map with as many pairs as
the frame has parameters, each from a flat key to a tagged value, and of an array with name and
bytes of each attachment. A reader that splits the keys at the first separator then has every
device and parameter at most once, and has for each device without separator and each parameter
what `find` shows. -/
theorem foreign_reader (hM : M.Lawful same) {f : MessageFrame μ} (hf : ApiFilled M f)
    (hfit : FitsWire f) :
    ∃ bytes pairs read, (∀ buffer, f.serialize M buffer = .returned () bytes) ∧
      M.Decodes bytes (.array [
        .array [.positiveInteger f.header.timestamp, .positiveInteger f.header.messageCnt,
          .positiveInteger f.header.sourceId.toUInt64, .positiveInteger f.header.targetId.toUInt64,
          .integer f.header.messageId.toInt64, .integer f.header.messageType.toInt64,
          .positiveInteger f.header.version.toUInt64, .positiveInteger f.header.flags.toUInt64],
        .map pairs,
        .array (f.attachments.map fun a => .array [.str a.name, .bin a.rawData])]) ∧
      f.parametersSize = .ok pairs.length ∧
      List.Forall₂ (fun e pair => pair.1 = .str e.1 ∧ ParameterValue.Tagged M same e.2 pair.2)
        f.visits pairs ∧
      readParameters (.map pairs) = some read ∧
      (keys read).Nodup ∧ (∀ k ∈ keys read, separator ∉ k.1) ∧
      ∀ device param, separator ∉ device → ∃ v, f.find device param = .ok v ∧
        Option.Rel (fun v t => ParameterValue.Tagged M same v (.array [t.1, t.2])) v
          (read.lookup (device, param)) := by
  have hkeys := hf.composedKeys
  obtain ⟨bytes, pairs, hser, hdec, hpairs⟩ := serialize_packs hM hkeys.inv hfit
  obtain ⟨read, hread, hall⟩ := readPairs_eq hpairs hkeys.composed
  obtain ⟨hnd, hfree⟩ := nodup_read hall hkeys.nodup
  refine ⟨bytes, pairs, read, hser, hdec, ?_, ?_, hread, hnd, hfree, fun device param hdevice =>
    ⟨_, HybridMessageMap.find_eq hkeys.inv device param, lookup_read hall hdevice param⟩⟩
  · rw [← hpairs.length_eq]
    exact HybridMessageMap.size_eq hkeys.inv
  · rw [visits_parameters, HybridMessageMap.visits_eq, List.forall₂_map_left_iff]
    exact hpairs.imp fun e pair hpair => ⟨hpair.key, hpair.tagged⟩

/-- A parameter whose name contains a separator, and one whose name is empty. -/
theorem foreign_reader_nested :
    ∃ (f : MessageFrame (ListMap ParameterKey ParameterValue)) (bytes : ByteString)
      (pairs : List (Object × Object))
      (read : List ((ByteString × ByteString) × (Object × Object))),
      Proc.execAll (FrameCall.exec Wire.codec)
        [.parameters (.add [97] [98, 0x1F, 99] (.lvalue (.int64 5))),
          .parameters (.set [97] [] (.lvalue .unknown))] (construct { timestamp := 7 } {}) =
          .ok ([some .void, some .void], f) ∧
      (∀ buffer, f.serialize Wire.codec buffer = .returned () bytes) ∧
      readParameters (.map pairs) = some read ∧ (keys read).Nodup ∧
      ∃ t, read.lookup ([97], [98, 0x1F, 99]) = some t ∧
        ParameterValue.Tagged Wire.codec Eq (.int64 5) (.array [t.1, t.2]) := by
  have hfilled : ApiFilled Wire.codec (⟨{ timestamp := 7 }, ⟨true,
      [(⟨[97, 0x1F, 98, 0x1F, 99]⟩, .int64 5), (⟨[97, 0x1F]⟩, .unknown)], {}, none⟩, []⟩ :
        MessageFrame (ListMap ParameterKey ParameterValue)) := by
    refine .parameters (.set [97] [] (.lvalue .unknown)) (.parameters
      (.add [97] [98, 0x1F, 99] (.lvalue (.int64 5))) (.empty (.construct 7 {}) rfl) ?_ rfl) ?_ rfl
    · exact fun key val hop => rfl
    · exact fun key val hop => by cases hop
  have hmem : ∀ key val, (key, val) ∈ [(([97, 0x1F, 98, 0x1F, 99] : ByteString),
      ParameterValue.int64 5), ([97, 0x1F], .unknown)] →
      key.length < 2 ^ 32 ∧ ∀ s, val ≠ .string s := by
    intro key val hmem
    simp only [List.mem_cons, List.not_mem_nil, Prod.mk.injEq, or_false] at hmem
    rcases hmem with ⟨rfl, rfl⟩ | ⟨rfl, rfl⟩
    · exact ⟨by decide, fun s h => by cases h⟩
    · exact ⟨by decide, fun s h => by cases h⟩
  obtain ⟨bytes, pairs, read, hser, -, -, -, hread, hnd, -, hfind⟩ :=
    foreign_reader Wire.lawful hfilled ⟨by decide, fun key val h => (hmem key val h).1,
      fun key s h => absurd rfl ((hmem key _ h).2 s), by decide, by simp, by simp⟩
  obtain ⟨v, hv, hrel⟩ := hfind [97] [98, 0x1F, 99] (by decide)
  obtain rfl : some (.int64 5) = v := Except.ok.inj hv
  refine ⟨_, bytes, pairs, read, rfl, hser, hread, hnd, ?_⟩
  generalize read.lookup ([97], [98, 0x1F, 99]) = found at hrel
  cases hrel with
  | some htagged => exact ⟨_, rfl, htagged⟩

end MessageFrame

end MsgFrame
