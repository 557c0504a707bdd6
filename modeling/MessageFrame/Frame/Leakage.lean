import MessageFrame.Frame.Calls
import MessageFrame.MessagePack.WireLawful

/-!
# What of a receiver survives an accepted buffer

Two receivers that deserialize the same buffer are compared. The parameter and attachment
sections are reset before they are decoded, so nothing of the receiver survives in them: not
its entries, not its storage mode, not its sizing hint, as far as a client can tell. A header
section that is not an array of at least eight elements is skipped *without* a reset, and then
the receiver keeps its old header under a new body.

`noLeak_iff` says exactly when the receivers agree.
-/

namespace MsgFrame

open Msgpack AssocList

namespace MessageFrame

variable {μ : Type} [UnorderedMap μ ParameterKey ParameterValue]

/-- Two frames hold the same message, as far as a client can tell; map mode does not promise
an order of traversal. -/
structure Agree (f g : MessageFrame μ) : Prop where
  header : f.header = g.header
  size : f.parametersSize = g.parametersSize
  find (device param : ByteString) : f.find device param = g.find device param
  findFlat (flatKey : FlatKey) : f.findFlat flatKey = g.findFlat flatKey
  iterate : f.visits.Perm g.visits
  attachments : f.attachments = g.attachments

/-- Two receivers give the same answer to a buffer, and agree if they accept it. -/
def NoLeak (M : Codec) (data : Option ByteString) (f g : MessageFrame μ) : Prop :=
  ∃ ok f' g', deserialize M data f = .returned ok f' ∧ deserialize M data g = .returned ok g' ∧
    (ok = true → Agree f' g')

/-- The buffer decodes in all its sections, but its header section is skipped. -/
def SkipsHeader (M : Codec) (data : Option ByteString) : Prop :=
  ∃ headerObj parametersObj attachmentsObj,
    sections M data = some (headerObj, parametersObj, attachmentsObj) ∧
    MessageHeader.hasFields headerObj = false ∧
    HybridMessageMap.convertible M parametersObj = true ∧
    attachmentsConvertible M attachmentsObj = true

theorem accepts_of_skipsHeader {M : Codec} {data : Option ByteString} (h : SkipsHeader M data) :
    accepts M data = true := by
  obtain ⟨headerObj, parametersObj, attachmentsObj, hs, hf, hp, ha⟩ := h
  have hh := (MessageHeader.received_of_not_hasFields (M := M) hf { timestamp := 0 }).1
  simp only [accepts, hs, hh, hp, ha, Bool.and_self]

theorem accepts_iff {M : Codec} {data : Option ByteString} : accepts M data = true ↔
    ∃ headerObj parametersObj attachmentsObj,
      sections M data = some (headerObj, parametersObj, attachmentsObj) ∧
      MessageHeader.convertible M headerObj = true ∧
      HybridMessageMap.convertible M parametersObj = true ∧
      attachmentsConvertible M attachmentsObj = true := by
  rw [accepts]
  cases hs : sections M data with
  | none => simp
  | some p =>
    obtain ⟨headerObj, parametersObj, attachmentsObj⟩ := p
    simp [and_assoc]

variable [LawfulUnorderedMap μ]

/-- The parameters of two receivers agree after they have unpacked the same object. -/
theorem agree_of_unpacked {M : Codec} {obj : Object} {f g f' g' : MessageFrame μ}
    (hf : HybridMessageMap.Unpacked M obj f.parameters f'.parameters)
    (hg : HybridMessageMap.Unpacked M obj g.parameters g'.parameters)
    (hheader : f'.header = g'.header) (hattach : f'.attachments = g'.attachments) :
    Agree f' g' where
  header := hheader
  size := by
    rw [parametersSize, parametersSize, HybridMessageMap.size_eq hf.inv,
      HybridMessageMap.size_eq hg.inv, (hf.perm hg).length_eq]
  find device param := by
    rw [MessageFrame.find, MessageFrame.find, HybridMessageMap.find_eq hf.inv,
      HybridMessageMap.find_eq hg.inv, hf.lookup, hg.lookup]
  findFlat flatKey := by
    rw [MessageFrame.findFlat, MessageFrame.findFlat, HybridMessageMap.findFlat_eq hf.inv,
      HybridMessageMap.findFlat_eq hg.inv, hf.lookup, hg.lookup]
  iterate := by
    rw [visits_parameters, visits_parameters, HybridMessageMap.visits_eq,
      HybridMessageMap.visits_eq]
    exact (hf.perm hg).map _
  attachments := hattach

/-- **When a reused receiver leaks nothing.** For every buffer and any two receivers, whatever
their history: they give the same answer and, if it is `true`, hold the same message
afterwards, exactly if their headers were equal before or the buffer is not one whose header
section is skipped while the rest is accepted. -/
theorem noLeak_iff (M : Codec) (data : Option ByteString) (f g : MessageFrame μ) :
    NoLeak M data f g ↔ (f.header = g.header ∨ ¬SkipsHeader M data) := by
  obtain ⟨ok₁, f', hexecf, hdf⟩ := deserialize_spec M data f
  obtain ⟨ok₂, g', hexecg, hdg⟩ := deserialize_spec M data g
  obtain rfl : ok₁ = ok₂ := hdf.ok_eq.trans hdg.ok_eq.symm
  constructor
  · rintro ⟨ok, f₁, g₁, hf₁, hg₁, hagree⟩
    rw [hexecf] at hf₁
    rw [hexecg] at hg₁
    cases hf₁
    cases hg₁
    by_contra hcon
    obtain ⟨hne, hskip⟩ := not_or.mp hcon
    rw [not_not] at hskip
    obtain rfl : ok₁ = true := hdf.ok_eq.trans (accepts_of_skipsHeader hskip)
    obtain ⟨headerObj, parametersObj, attachmentsObj, hs, hno, -, -⟩ := hskip
    have hheader := (hagree rfl).header
    rw [(hdf.of_sections hs).1, (hdg.of_sections hs).1,
      (MessageHeader.received_of_not_hasFields hno _).2,
      (MessageHeader.received_of_not_hasFields hno _).2] at hheader
    exact hne hheader
  · intro hcond
    refine ⟨ok₁, f', g', hexecf, hexecg, fun hok => ?_⟩
    subst hok
    obtain ⟨headerObj, parametersObj, attachmentsObj, hs, hh, hp, ha⟩ :=
      accepts_iff.mp hdf.ok_eq.symm
    obtain ⟨hheaderf, huf, hattf⟩ := hdf.of_sections hs
    obtain ⟨hheaderg, hug, hattg⟩ := hdg.of_sections hs
    refine agree_of_unpacked huf hug ?_ (hattf.trans hattg.symm)
    rw [hheaderf, hheaderg]
    rcases hcond with heq | hno
    · rw [heq]
    · -- all eight fields are replaced, or the section is skipped
      cases hfields : MessageHeader.hasFields headerObj with
      | true =>
        obtain ⟨h₀, hall⟩ := MessageHeader.received_of_hasFields hfields hh
        rw [hall, hall]
      | false => exact absurd ⟨_, _, _, hs, hfields, hp, ha⟩ hno

/-- Two receivers with different headers and a buffer with all eight fields. -/
theorem noLeak_eight_fields : NoLeak Wire.codec
    (some [0x93, 0x98, 1, 2, 3, 4, 5, 6, 7, 8, 0x80, 0x90])
    (construct { timestamp := 1 } {} : MessageFrame (ListMap ParameterKey ParameterValue))
    (construct { timestamp := 2 } { initialReserve := 200 }) := by
  refine (noLeak_iff Wire.codec _ _ _).mpr (.inr ?_)
  rintro ⟨headerObj, parametersObj, attachmentsObj, hs, hno, -, -⟩
  cases hs
  cases hno

/-- The buffer `[nil, {}, []]` is accepted by two receivers and leaves them with different
headers. -/
theorem noLeak_fails :
    Reachable Wire.codec (construct { timestamp := 1 } {} :
      MessageFrame (ListMap ParameterKey ParameterValue)) ∧
    Reachable Wire.codec (construct { timestamp := 2 } {} :
      MessageFrame (ListMap ParameterKey ParameterValue)) ∧
    ¬NoLeak Wire.codec (some [0x93, 0xc0, 0x80, 0x90])
      (construct { timestamp := 1 } {} : MessageFrame (ListMap ParameterKey ParameterValue))
      (construct { timestamp := 2 } {}) := by
  refine ⟨.construct 1 _, .construct 2 _, ?_⟩
  rintro ⟨ok, f', g', hf, hg, hagree⟩
  cases hf
  cases hg
  have hheader := (hagree rfl).header
  revert hheader
  decide

end MessageFrame

end MsgFrame
