import Mathlib.Data.Finset.Card
import Mathlib.Data.Finset.Dedup
import MessageFrame.Container.Transparency
import MessageFrame.Frame.Calls
import MessageFrame.MessagePack.WireLawful

/-!
# Key uniqueness, with received data

No operation of the container checks that keys are unique when an entry enters the vector; it
is up to those who put entries there. `add` is documented to be used on absent keys, and `set`
looks before it inserts. `unpack` does neither: a small wire map with a repeated key is stored
as it comes, while the map storage of a large one drops the repetition.

`DistinctKeys` is the condition on a received buffer under which uniqueness survives
(`Deserialized.nodup_iff` shows that it is the weakest one), and `received_keys_unique_iff` is
uniqueness over runs of a frame, with what it means to a client (`UniqueKeys`).
-/

namespace MsgFrame

open Msgpack AssocList

namespace HybridMessageMap

variable {μ : Type} [UnorderedMap μ ParameterKey ParameterValue] {m m' : HybridMessageMap μ}
  {op : MapOp} {r : Reply}

/-- An operation keeps the keys unique, if it inserts on absent keys only. -/
theorem Effect.nodup (he : Effect m op r m') (hnd : (keys m.entries).Nodup)
    (hadd : ∀ key val, op = .insert key val → ⟨key⟩ ∉ keys m.entries) [LawfulUnorderedMap μ] :
    (keys m'.entries).Nodup := by
  cases he with
  | @insert key val _ hins =>
    have hnd' := nodup_keys_append_singleton hnd (hadd key val rfl) val
    exact (keys_perm (hins.perm hnd')).nodup_iff.mpr hnd'
  | upsertOld _ has => rwa [has.entries, keys_replaceFirst]
  | @upsertNew key val _ hnot hins =>
    have hnd' := nodup_keys_append_singleton hnd hnot val
    exact (keys_perm (hins.perm hnd')).nodup_iff.mpr hnd'
  | replaceOld _ has => rwa [has.entries, keys_replaceFirst]
  | replaceMissing _ => exact hnd
  | lookup => exact hnd
  | clear =>
    rw [entries_ofConfig]
    exact List.nodup_nil

/-- Inserting an absent key, by `add` or by `set`, adds one entry. -/
theorem Effect.length_insert (he : Effect m op r m') (hnd : (keys m.entries).Nodup)
    {key : ByteString} {val : ParameterValue}
    (hop : op = .insert key val ∨ op = .upsert key val) (hnot : ⟨key⟩ ∉ keys m.entries) :
    r = .void ∧ m'.entries.length = m.entries.length + 1 := by
  have hone : ∀ {m'}, Inserted m ⟨key⟩ val m' → m'.entries.length = m.entries.length + 1 := by
    intro m' hins
    rw [(hins.perm (nodup_keys_append_singleton hnd hnot val)).length_eq, List.length_append,
      List.length_singleton]
  rcases hop with rfl | rfl
  · cases he with
    | insert hins => exact ⟨rfl, hone hins⟩
  · cases he with
    | upsertOld hmem _ => exact absurd hmem hnot
    | upsertNew _ hins => exact ⟨rfl, hone hins⟩

end HybridMessageMap

namespace MessageFrame

variable {μ : Type} [UnorderedMap μ ParameterKey ParameterValue]

/-- Up to `smallCapacity` pairs, the keys that a buffer brings before the first pair that does
not convert are distinct. Of a buffer whose header does not convert nothing is asked. -/
def DistinctKeys (M : Codec) (data : Option ByteString) : Prop :=
  ∀ headerObj parametersObj attachmentsObj,
    sections M data = some (headerObj, parametersObj, attachmentsObj) →
    MessageHeader.convertible M headerObj = true →
    (HybridMessageMap.pairsOf parametersObj).length ≤ smallCapacity →
    (keys (HybridMessageMap.received M parametersObj)).Nodup

/-- The call respects the precondition of `add`: the key is absent. -/
def AddsAbsent (c : FrameCall) (f : MessageFrame μ) : Prop :=
  match c with
  | .parameters call => HybridMessageMap.AddsAbsent call f.parameters
  | _ => True

/-- The call does not receive a key twice. -/
def ReceivesDistinct (M : Codec) (c : FrameCall) (_ : MessageFrame μ) : Prop :=
  match c with
  | .deserialize data => DistinctKeys M data
  | _ => True

/-- What unique keys mean to a client. -/
structure UniqueKeys (M : Codec) (f : MessageFrame μ) : Prop where
  /-- A traversal never visits a key twice. -/
  once : (keys f.visits).Nodup
  /-- The size is the number of distinct keys. -/
  size : f.parametersSize = .ok (keys f.visits).toFinset.card
  /-- Every visited value is the one that a lookup returns. -/
  value : ∀ key val, (key, val) ∈ f.visits → f.parameters.findView key = .ok (some val)
  /-- Inserting an absent key adds one to the size. -/
  grows : ∀ (c : MapCall) (key : ByteString) (val : ParameterValue),
    c.op = .insert key val ∨ c.op = .upsert key val → f.parameters.findView key = .ok none →
    ∃ f' n, FrameCall.exec M (.parameters c) f = .returned .void f' ∧
      f.parametersSize = .ok n ∧ f'.parametersSize = .ok (n + 1)

variable [LawfulUnorderedMap μ] {M : Codec}

/-- **One buffer**: unique keys stay unique exactly if the buffer brings distinct keys. -/
theorem Deserialized.nodup_iff {data : Option ByteString} {f f' : MessageFrame μ} {ok : Bool}
    (hd : Deserialized M data f ok f') (hnd : (keys f.parameters.entries).Nodup) :
    (keys f'.parameters.entries).Nodup ↔ DistinctKeys M data := by
  have hsome : ∀ {headerObj parametersObj attachmentsObj : Object},
      sections M data = some (headerObj, parametersObj, attachmentsObj) →
      MessageHeader.convertible M headerObj = true →
      (DistinctKeys M data ↔ ((HybridMessageMap.pairsOf parametersObj).length ≤ smallCapacity →
        (keys (HybridMessageMap.received M parametersObj)).Nodup)) := by
    intro headerObj parametersObj attachmentsObj hs hh
    refine ⟨fun hdist => hdist _ _ _ hs hh, fun hdist a b c hs' _ => ?_⟩
    rw [hs] at hs'
    cases hs'
    exact hdist
  cases hd with
  | rejected hs =>
    refine iff_of_true hnd fun a b c hs' => ?_
    rw [hs] at hs'
    cases hs'
  | header hs hh =>
    refine iff_of_true hnd fun a b c hs' hh' => ?_
    rw [hs] at hs'
    cases hs'
    rw [hh] at hh'
    cases hh'
  | parameters hs hh _ hu => rw [hsome hs hh, hu.nodup_iff]
  | attachments hs hh _ hu => rw [hsome hs hh, hu.nodup_iff]

/-- **One call** keeps the keys unique. -/
theorem FrameEffect.nodup {f f' : MessageFrame μ} {c : FrameCall} {r : Reply}
    (he : FrameEffect M f c r f') (h : f.parameters.Inv)
    (hnd : (keys f.parameters.entries).Nodup) (hadd : AddsAbsent c f)
    (hrec : ReceivesDistinct M c f) : (keys f'.parameters.entries).Nodup := by
  cases he with
  | parameters heff =>
    refine heff.nodup hnd fun key val hop => ?_
    have hfind := hadd key val hop
    rwa [HybridMessageMap.findView_eq h, Except.ok.injEq, lookup_eq_none] at hfind
  | header _ => exact hnd
  | addAttachment _ _ => exact hnd
  | clear =>
    rw [HybridMessageMap.entries_ofConfig]
    exact List.nodup_nil
  | deserialize hd => exact (hd.nodup_iff hnd).mpr hrec

/-- Unique keys of the entries, as a client sees them. -/
theorem uniqueKeys_of_nodup {f : MessageFrame μ} (h : f.parameters.Inv)
    (hnd : (keys f.parameters.entries).Nodup) : UniqueKeys M f := by
  have honce : (keys f.visits).Nodup := HybridMessageMap.nodup_keys_visits.mpr hnd
  have hsize : f.parametersSize = .ok f.parameters.entries.length := HybridMessageMap.size_eq h
  refine ⟨honce, ?_, fun key val hmem => ?_, fun c key val hop hfind => ?_⟩
  · rw [hsize, List.toFinset_card_of_nodup honce, length_keys, visits_parameters,
      HybridMessageMap.visits_eq, List.length_map]
  · rw [visits_parameters, HybridMessageMap.visits_eq, List.mem_map] at hmem
    obtain ⟨⟨⟨k⟩, v⟩, hmem, hvisit⟩ := hmem
    obtain ⟨rfl, rfl⟩ := Prod.mk.inj hvisit
    rw [HybridMessageMap.findView_eq h, (lookup_eq_some hnd).mpr hmem]
  · rw [HybridMessageMap.findView_eq h, Except.ok.injEq, lookup_eq_none] at hfind
    obtain ⟨r, p, hexec, heff⟩ := c.exec_spec h
    obtain ⟨rfl, hlen⟩ := heff.length_insert hnd hop hfind
    have hexec' : onParameters c.exec f = .returned .void { f with parameters := p } :=
      Proc.onField_of_returned hexec
    refine ⟨_, _, hexec', hsize, ?_⟩
    rw [← hlen]
    exact HybridMessageMap.size_eq (heff.inv h)

/-- A frame whose parameter keys are unique. -/
private def Uniq (f : MessageFrame μ) : Prop :=
  f.parameters.Inv ∧ (keys f.parameters.entries).Nodup

private theorem keeps_uniq (M : Codec) (c : FrameCall) :
    Proc.Spec (fun f : MessageFrame μ => Uniq f ∧ AddsAbsent c f ∧ ReceivesDistinct M c f)
      (c.exec M) (fun _ => Uniq) Uniq := by
  refine Proc.Spec.of_returned ?_
  rintro f ⟨⟨h, hnd⟩, hadd, hrec⟩
  obtain ⟨r, f', hexec, heff⟩ := c.exec_spec M h
  exact ⟨r, f', hexec, heff.inv h, heff.nodup h hnd hadd hrec⟩

/-- A call after which the keys are unique has not received a key twice. -/
private theorem receivesDistinct_of_once {c : FrameCall} {f f' : MessageFrame μ} (hf : Uniq f)
    (hlead : Proc.Leads (c.exec M) f f') (honce : (keys f'.visits).Nodup) :
    ReceivesDistinct M c f := by
  obtain ⟨r, f₁, hexec, heff⟩ := c.exec_spec M hf.1
  obtain rfl := hlead.unique (.inl ⟨r, hexec⟩)
  cases heff with
  | deserialize hd => exact (hd.nodup_iff hf.2).mp (HybridMessageMap.nodup_keys_visits.mp honce)
  | parameters _ | header _ | addAttachment _ _ | clear => trivial

/-- **Key uniqueness, with received data.** In a run that uses `add` on absent keys, every state
that is reached has unique keys exactly if no buffer brings a key twice. -/
theorem received_keys_unique_iff (M : Codec) (header : MessageHeader) (config : FrameConfig)
    (calls : List FrameCall) (hadd : Proc.Along (FrameCall.exec M) AddsAbsent calls
      (construct header config : MessageFrame μ)) :
    (∀ done, done <+: calls → ∃ rs f', Proc.execAll (FrameCall.exec M) done
      (construct header config : MessageFrame μ) = .ok (rs, f') ∧ UniqueKeys M f') ↔
      Proc.Along (FrameCall.exec M) (ReceivesDistinct M) calls
        (construct header config : MessageFrame μ) := by
  have hnew : Uniq (construct header config : MessageFrame μ) := by
    refine ⟨HybridMessageMap.ofConfig_inv config, ?_⟩
    have hempty : (construct header config : MessageFrame μ).parameters.entries = [] :=
      HybridMessageMap.entries_ofConfig config
    rw [hempty]
    exact List.nodup_nil
  exact Proc.along_iff (fun f hf => uniqueKeys_of_nodup hf.1 hf.2) (keeps_uniq M)
    (fun c f f' hf _ hlead hu => receivesDistinct_of_once hf hlead hu.once) hnew hadd

/-- A parameter is set, and then a buffer with one parameter is received. -/
theorem received_keys_unique_one :
    ∃ rs f', Proc.execAll (FrameCall.exec Wire.codec)
      [.parameters (.add [97] [98] (.lvalue .unknown)),
        .deserialize (some [0x93, 0xc0, 0x81, 0xa1, 97, 0xc0, 0x90])]
      (construct { timestamp := 0 } {} : MessageFrame (ListMap ParameterKey ParameterValue)) =
      .ok (rs, f') ∧ UniqueKeys Wire.codec f' := by
  refine (received_keys_unique_iff (μ := ListMap ParameterKey ParameterValue) Wire.codec
    { timestamp := 0 } {} [.parameters (.add [97] [98] (.lvalue .unknown)),
      .deserialize (some [0x93, 0xc0, 0x81, 0xa1, 97, 0xc0, 0x90])]
    ⟨fun key val hop => rfl, fun f' _ => ⟨trivial, fun _ _ => trivial⟩⟩).mpr
    ⟨trivial, fun f' _ => ⟨?_, fun _ _ => trivial⟩⟩ _ (List.prefix_refl _)
  intro headerObj parametersObj attachmentsObj hs _ _
  cases hs
  decide

/-- A buffer whose parameter map holds the key `a` twice is accepted by a new frame, and a
traversal of the frame then visits the key twice. -/
theorem received_keys_unique_fails :
    ∃ f' : MessageFrame (ListMap ParameterKey ParameterValue),
      deserialize Wire.codec
        (some [0x93, 0xc0, 0x82, 0xa1, 97, 0x92, 10, 1, 0xa1, 97, 0x92, 10, 2, 0x90])
        (construct { timestamp := 0 } {}) = .returned true f' ∧
      ¬UniqueKeys Wire.codec f' := by
  refine ⟨_, rfl, fun h => ?_⟩
  have honce := h.once
  revert honce
  decide

end MessageFrame

end MsgFrame
