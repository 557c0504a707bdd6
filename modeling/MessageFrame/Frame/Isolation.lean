import MessageFrame.Container.Refinement
import MessageFrame.Model.MessageFrame

/-!
# Devices on one frame

Keys are composed with an in-band separator, and nothing is escaped: two devices address
different entries as long as neither name is a beginning of the other up to a separator.
`separate_iff` shows that this condition, `Separate`, is the exact one. Names without a
separator, which is what the library is meant for, always satisfy it.

For two such devices isolation is a fact about the abstract finite map: an update at a key of
the other device leaves the keys of the own one alone (`PartialMap.AgreeOn`). The frame
inherits it through the refinement, whatever conversions the other device's insertions cause.
-/

namespace MsgFrame

open Msgpack AssocList

/-- Neither device name begins with the other one followed by a separator. -/
def Separate (A B : ByteString) : Prop :=
  A ≠ B ∧ ¬(A ++ [separator]) <+: B ∧ ¬(B ++ [separator]) <+: A

instance (A B : ByteString) : Decidable (Separate A B) := by
  unfold Separate
  infer_instance

/-- Two keys with the same string: either the same device, or the rest of the longer device
name is the beginning of the other parameter name. -/
theorem composeKey_eq_iff {A B p q : ByteString} : composeKey A p = composeKey B q ↔
    (A = B ∧ p = q) ∨ (∃ r, B = A ++ separator :: r ∧ p = r ++ separator :: q) ∨
      ∃ r, A = B ++ separator :: r ∧ q = r ++ separator :: p := by
  rw [composeKey, composeKey, List.append_eq_append_iff]
  constructor
  · rintro (⟨l, hB, hp⟩ | ⟨l, hA, hq⟩)
    · cases l with
      | nil =>
        rw [List.append_nil] at hB
        rw [List.nil_append] at hp
        exact .inl ⟨hB.symm, (List.cons.inj hp).2⟩
      | cons c l =>
        obtain ⟨rfl, hp'⟩ := List.cons.inj hp
        exact .inr (.inl ⟨l, hB, hp'⟩)
    · cases l with
      | nil =>
        rw [List.append_nil] at hA
        rw [List.nil_append] at hq
        exact .inl ⟨hA, (List.cons.inj hq).2.symm⟩
      | cons c l =>
        obtain ⟨rfl, hq'⟩ := List.cons.inj hq
        exact .inr (.inr ⟨l, hA, hq'⟩)
  · rintro (⟨rfl, rfl⟩ | ⟨r, rfl, rfl⟩ | ⟨r, rfl, rfl⟩)
    · exact .inl ⟨[], by simp⟩
    · exact .inl ⟨separator :: r, by simp⟩
    · exact .inr ⟨separator :: r, by simp⟩

/-- **When two devices never share an entry.** -/
theorem separate_iff {A B : ByteString} :
    Separate A B ↔ ∀ p q, composeKey A p ≠ composeKey B q := by
  have hprefix : ∀ {X Y : ByteString}, (X ++ [separator]) <+: Y ↔ ∃ r, Y = X ++ separator :: r := by
    intro X Y
    constructor
    · rintro ⟨r, rfl⟩
      exact ⟨r, by simp⟩
    · rintro ⟨r, rfl⟩
      exact ⟨r, by simp⟩
  rw [Separate, hprefix, hprefix]
  constructor
  · rintro ⟨hne, hB, hA⟩ p q heq
    rcases composeKey_eq_iff.mp heq with ⟨he, -⟩ | ⟨r, he, -⟩ | ⟨r, he, -⟩
    · exact hne he
    · exact hB ⟨r, he⟩
    · exact hA ⟨r, he⟩
  · intro hne
    refine ⟨?_, ?_, ?_⟩
    · rintro rfl
      exact hne [] [] rfl
    · rintro ⟨r, he⟩
      exact hne (r ++ [separator]) [] (composeKey_eq_iff.mpr (.inr (.inl ⟨r, he, rfl⟩)))
    · rintro ⟨r, he⟩
      exact hne [] (r ++ [separator]) (composeKey_eq_iff.mpr (.inr (.inr ⟨r, he, rfl⟩)))

/-- Device names without a separator are separate. -/
theorem separate_of_notMem {A B : ByteString} (hne : A ≠ B) (hA : separator ∉ A)
    (hB : separator ∉ B) : Separate A B := by
  refine ⟨hne, fun h => hB (h.mem ?_), fun h => hA (h.mem ?_)⟩
  · exact List.mem_append_right A (List.mem_singleton_self separator)
  · exact List.mem_append_right B (List.mem_singleton_self separator)

/-! ### Calls that address one device -/

/-- The call is a `set`, `update` or `find`, in pair or flat form, on a parameter of the
device. -/
def Addresses (device : ByteString) : MapCall → Prop
  | .set d _ _ => d = device
  | .setFlat k _ => ∃ param, k = FlatKey.compose device param
  | .update d _ _ => d = device
  | .updateFlat k _ => ∃ param, k = FlatKey.compose device param
  | .find d _ => d = device
  | .findFlat k => ∃ param, k = FlatKey.compose device param
  | _ => False

/-- The keys of a device. -/
def KeyOf (device key : ByteString) : Prop := ∃ param, key = composeKey device param

theorem Addresses.op {device : ByteString} {c : MapCall} (h : Addresses device c) :
    ∃ key, KeyOf device key ∧ ((∃ val, c.op = .upsert key val) ∨
      (∃ val, c.op = .replace key val) ∨ c.op = .lookup key) := by
  cases c with
  | set d param val =>
    obtain rfl : d = device := h
    exact ⟨_, ⟨param, rfl⟩, .inl ⟨_, rfl⟩⟩
  | update d param val =>
    obtain rfl : d = device := h
    exact ⟨_, ⟨param, rfl⟩, .inr (.inl ⟨_, rfl⟩)⟩
  | find d param =>
    obtain rfl : d = device := h
    exact ⟨_, ⟨param, rfl⟩, .inr (.inr rfl)⟩
  | setFlat k val =>
    obtain ⟨param, rfl⟩ := h
    exact ⟨_, ⟨param, FlatKey.view_compose device param⟩, .inl ⟨_, rfl⟩⟩
  | updateFlat k val =>
    obtain ⟨param, rfl⟩ := h
    exact ⟨_, ⟨param, FlatKey.view_compose device param⟩, .inr (.inl ⟨_, rfl⟩)⟩
  | findFlat k =>
    obtain ⟨param, rfl⟩ := h
    exact ⟨_, ⟨param, FlatKey.view_compose device param⟩, .inr (.inr rfl)⟩
  | add d param val => cases h
  | addFlat k val => cases h
  | clear => cases h

variable {A B : ByteString} {f g : PartialMap ByteString ParameterValue} {c : MapCall}

/-- A call of the device, on two maps that agree on the device. -/
theorem step_own (h : f.AgreeOn (KeyOf A) g) (hc : Addresses A c) :
    (c.step f).1 = (c.step g).1 ∧ PartialMap.AgreeOn (KeyOf A) (c.step f).2 (c.step g).2 := by
  obtain ⟨key, hkey, ⟨val, hop⟩ | ⟨val, hop⟩ | hop⟩ := hc.op
  · simp only [MapCall.step, hop, MapOp.step]
    exact ⟨trivial, h.upsert key val⟩
  · simp only [MapCall.step, hop, MapOp.step, h key hkey]
    exact ⟨trivial, h.replace hkey val⟩
  · simp only [MapCall.step, hop, MapOp.step, h key hkey]
    exact ⟨trivial, h⟩

/-- A call of another device changes nothing for this one. -/
theorem step_other (hsep : Separate A B) (h : f.AgreeOn (KeyOf A) g) (hc : Addresses B c) :
    PartialMap.AgreeOn (KeyOf A) (c.step f).2 g := by
  obtain ⟨key, ⟨q, rfl⟩, hop⟩ := hc.op
  have hnot : ¬KeyOf A (composeKey B q) := by
    rintro ⟨p, hp⟩
    exact separate_iff.mp hsep p q hp.symm
  rcases hop with ⟨val, hop⟩ | ⟨val, hop⟩ | hop
  · simp only [MapCall.step, hop, MapOp.step]
    exact h.upsert_left hnot val
  · simp only [MapCall.step, hop, MapOp.step]
    exact h.replace_left hnot val
  · simp only [MapCall.step, hop, MapOp.step]
    exact h

/-! ### Interleavings -/

/-- The calls of the own device in an interleaving. -/
def ownCalls (calls : List (Bool × MapCall)) : List MapCall :=
  (calls.filter Prod.fst).map Prod.snd

/-- The replies to the calls of the own device in an interleaving. -/
def ownReplies {α : Type} (calls : List (Bool × MapCall)) (rs : List α) : List α :=
  ((calls.zip rs).filter fun p => p.1.1).map Prod.snd

/-- **An interleaving of the abstract machine**: the own replies and the own keys are as if the
other device did not exist. -/
theorem runMachine_own (hsep : Separate A B) {calls : List (Bool × MapCall)}
    (hcalls : ∀ p ∈ calls, Addresses (if p.1 then A else B) p.2) (h : f.AgreeOn (KeyOf A) g) :
    ownReplies calls (Proc.runMachine MapCall.step (calls.map Prod.snd) f).1 =
        (Proc.runMachine MapCall.step (ownCalls calls) g).1 ∧
      PartialMap.AgreeOn (KeyOf A) (Proc.runMachine MapCall.step (calls.map Prod.snd) f).2
        (Proc.runMachine MapCall.step (ownCalls calls) g).2 := by
  induction calls generalizing f g with
  | nil => exact ⟨rfl, h⟩
  | cons p calls ih =>
    obtain ⟨own, c⟩ := p
    have hc := hcalls (own, c) List.mem_cons_self
    have ih := fun {f g} => ih (f := f) (g := g) fun p hp => hcalls p (List.mem_cons_of_mem _ hp)
    cases own with
    | true =>
      obtain ⟨hreply, hagree⟩ := step_own h hc
      obtain ⟨hreplies, hfinal⟩ := ih hagree
      refine ⟨?_, hfinal⟩
      simp only [ownReplies, ownCalls] at hreplies ⊢
      simpa [Proc.runMachine, hreply] using hreplies
    | false =>
      obtain ⟨hreplies, hfinal⟩ := ih (step_other hsep h hc)
      refine ⟨?_, hfinal⟩
      simp only [ownReplies, ownCalls] at hreplies ⊢
      simpa [Proc.runMachine] using hreplies

theorem ownReplies_map {α β : Type} (calls : List (Bool × MapCall)) (g : α → β) (rs : List α) :
    ownReplies calls (rs.map g) = (ownReplies calls rs).map g := by
  simp only [ownReplies, List.zip_map_right, List.filter_map, List.map_map]
  rfl

/-! ### Frames -/

namespace MessageFrame

variable {μ : Type} [UnorderedMap μ ParameterKey ParameterValue] [LawfulUnorderedMap μ]

/-- Calls on a frame simulate the abstract machine. -/
theorem execAll_refines {m : MessageFrame μ} (h : HybridMessageMap.Refines m.parameters f)
    (calls : List MapCall) :
    ∃ m', Proc.execAll (fun c : MapCall => onParameters c.exec) calls m =
        .ok ((Proc.runMachine MapCall.step calls f).1.map some, m') ∧
      HybridMessageMap.Refines m'.parameters (Proc.runMachine MapCall.step calls f).2 := by
  refine Proc.execAll_simulates
    (R := fun (m : MessageFrame μ) f => HybridMessageMap.Refines m.parameters f)
    (G := fun _ _ => True) (fun _ _ _ _ => trivial) (fun c _ s t _ hR => ?_) calls m f trivial h
  obtain ⟨p, hexec, href⟩ := HybridMessageMap.Refines.exec hR c
  exact ⟨_, Proc.onField_of_returned hexec, href⟩

/-- **Device isolation under interleaving.** Calls that address separate devices `A` and `B`
are interleaved in any way on a new frame, with any sizing hint. The replies to the calls of
`A`, and afterwards every parameter of `A`, are what the calls of `A` alone produce; no
parameter of one device shares an entry with a parameter of the other. -/
theorem device_isolation (header : MessageHeader) (config : FrameConfig) (hsep : Separate A B)
    (calls : List (Bool × MapCall))
    (hcalls : ∀ p ∈ calls, Addresses (if p.1 then A else B) p.2) :
    (∀ p q, composeKey A p ≠ composeKey B q) ∧
    ∃ (rs : List (Option Reply)) (m mA : MessageFrame μ),
      Proc.execAll (fun c : MapCall => onParameters c.exec) (calls.map Prod.snd)
        (construct header config) = .ok (rs, m) ∧
      Proc.execAll (fun c : MapCall => onParameters c.exec) (ownCalls calls)
        (construct header config) = .ok (ownReplies calls rs, mA) ∧
      ∀ param, m.find A param = mA.find A param ∧
        m.findFlat (.compose A param) = mA.findFlat (.compose A param) := by
  have hinit : HybridMessageMap.Refines (construct header config : MessageFrame μ).parameters
      PartialMap.empty := HybridMessageMap.Refines.ofConfig config
  obtain ⟨m, hexec, href⟩ := execAll_refines hinit (calls.map Prod.snd)
  obtain ⟨mA, hexecA, hrefA⟩ := execAll_refines hinit (ownCalls calls)
  obtain ⟨hreplies, hagree⟩ := runMachine_own hsep hcalls
    (f := PartialMap.empty) (g := PartialMap.empty) fun _ _ => rfl
  refine ⟨separate_iff.mp hsep, _, m, mA, hexec, ?_, fun param => ⟨?_, ?_⟩⟩
  · rw [hexecA, ownReplies_map, hreplies]
  · rw [MessageFrame.find, MessageFrame.find, HybridMessageMap.find_eq href.inv,
      HybridMessageMap.find_eq hrefA.inv, href.lookup, hrefA.lookup, hagree _ ⟨param, rfl⟩]
  · rw [MessageFrame.findFlat, MessageFrame.findFlat, HybridMessageMap.findFlat_eq href.inv,
      HybridMessageMap.findFlat_eq hrefA.inv, href.lookup, hrefA.lookup,
      hagree _ ⟨param, FlatKey.view_compose A param⟩]

/-- Two devices with one-letter names set the same parameter. -/
theorem device_isolation_letters :
    ∃ (rs : List (Option Reply)) (m mA : MessageFrame (ListMap ParameterKey ParameterValue)),
      Proc.execAll (fun c : MapCall => onParameters c.exec)
        [.set [97] [112] (.lvalue (.bool true)), .set [98] [112] (.lvalue (.bool false)),
          .find [97] [112]] (construct { timestamp := 0 } { initialReserve := 200 }) =
            .ok (rs, m) ∧
      Proc.execAll (fun c : MapCall => onParameters c.exec)
        [.set [97] [112] (.lvalue (.bool true)), .find [97] [112]]
        (construct { timestamp := 0 } { initialReserve := 200 }) =
          .ok (ownReplies [(true, .set [97] [112] (.lvalue (.bool true))),
            (false, .set [98] [112] (.lvalue (.bool false))), (true, .find [97] [112])] rs, mA) ∧
      m.find [97] [112] = mA.find [97] [112] := by
  have hcalls : ∀ p ∈ [(true, MapCall.set [97] [112] (.lvalue (.bool true))),
      (false, .set [98] [112] (.lvalue (.bool false))), (true, .find [97] [112])],
      Addresses (if p.1 then [97] else [98]) p.2 := by
    simp [Addresses]
  obtain ⟨-, rs, m, mA, hexec, hexecA, hfind⟩ :=
    device_isolation (μ := ListMap ParameterKey ParameterValue) { timestamp := 0 }
      { initialReserve := 200 } (by decide) _ hcalls
  exact ⟨rs, m, mA, hexec, hexecA, (hfind [112]).1⟩

/-- The devices `a` and `a␟b` on one frame: a parameter that the second one sets is found by
the first one, which alone would not have found it. -/
theorem device_isolation_fails :
    ∃ (m mA : MessageFrame (ListMap ParameterKey ParameterValue)),
      Addresses [97, 0x1F, 98] (.set [97, 0x1F, 98] [99] (.lvalue .unknown)) ∧
      Addresses [97] (.find [97] [98, 0x1F, 99]) ∧
      Proc.execAll (fun c : MapCall => onParameters c.exec)
        [.set [97, 0x1F, 98] [99] (.lvalue .unknown), .find [97] [98, 0x1F, 99]]
        (construct { timestamp := 0 } {}) =
          .ok ([some .void, some (.value (some .unknown))], m) ∧
      Proc.execAll (fun c : MapCall => onParameters c.exec) [.find [97] [98, 0x1F, 99]]
        (construct { timestamp := 0 } {}) = .ok ([some (.value none)], mA) :=
  ⟨_, _, rfl, rfl, rfl, rfl⟩

end MessageFrame

end MsgFrame
