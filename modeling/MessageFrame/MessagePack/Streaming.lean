import MessageFrame.MessagePack.WireLawful

/-!
# Objects end where they end

An unpacker that reads an object off the front of a buffer does not look at the bytes behind it
(`Codec.Streams`). An encoding that it reads to its end can then not be cut: what is left of it
after a cut is not an encoding of anything, neither of this object nor of another one
(`Codec.Decodes.cut`).

The wire format has the property. It is one of all its readers (`Wire.Extends`), and it passes from
the readers of single bytes to those of nested objects.
-/

namespace Msgpack

namespace Codec

/-- What is read off the front of a buffer does not depend on the bytes that are left over. -/
def Streams (M : Codec) : Prop :=
  ∀ bytes obj rest, M.parse bytes = some (obj, rest) →
    ∀ extra, M.parse (bytes ++ extra) = some (obj, rest ++ extra)

variable {M : Codec}

/-- **An encoding cannot be cut.** -/
theorem Decodes.cut (hM : M.Streams) {bytes cut : ByteString} {obj : Object}
    (h : M.Decodes bytes obj) (hcut : cut <+: bytes) (hne : cut ≠ bytes) : M.unpack cut = none := by
  obtain ⟨lost, rfl⟩ := hcut
  have hwhole := h []
  rw [List.append_nil] at hwhole
  rw [unpack, Option.map_eq_none_iff]
  by_contra hsome
  obtain ⟨⟨obj', rest⟩, hread⟩ := Option.ne_none_iff_exists'.mp hsome
  -- whatever is read off the front is read off the whole, and leaves the lost bytes over
  have hover := hM cut obj' rest hread lost
  rw [hwhole] at hover
  have hnil : rest ++ lost = [] := by
    injection hover with hpair
    exact (Prod.mk.inj hpair).2.symm
  exact hne (by rw [(List.append_eq_nil_iff.mp hnil).2, List.append_nil])

end Codec

namespace Wire

section Extends

variable {α β : Type}

/-- The reader does not look at the bytes behind what it reads. -/
def Extends (item : ByteString → Option (α × ByteString)) : Prop :=
  ∀ bytes a rest, item bytes = some (a, rest) →
    ∀ extra, item (bytes ++ extra) = some (a, rest ++ extra)

theorem Extends.some (a : α) : Extends fun bytes => some (a, bytes) := by
  rintro bytes a' rest h extra
  cases h
  rfl

theorem Extends.bind {x : ByteString → Option (α × ByteString)}
    {f : α → ByteString → Option (β × ByteString)} (hx : Extends x) (hf : ∀ a, Extends (f a)) :
    Extends fun bytes => x bytes >>= fun p => f p.1 p.2 := by
  intro bytes b rest h extra
  simp only [Option.bind_eq_bind, Option.bind_eq_some_iff, Prod.exists] at h ⊢
  obtain ⟨a, rest', ha, hb⟩ := h
  exact ⟨a, rest' ++ extra, hx _ _ _ ha extra, hf a _ _ _ hb extra⟩

theorem Extends.map {x : ByteString → Option (α × ByteString)} (hx : Extends x) (g : α → β) :
    Extends fun bytes => (x bytes).map fun p => (g p.1, p.2) := by
  intro bytes b rest h extra
  simp only [Option.map_eq_some_iff, Prod.exists, Prod.mk.injEq] at h ⊢
  obtain ⟨a, rest', ha, rfl, rfl⟩ := h
  exact ⟨a, _, hx _ _ _ ha extra, rfl, rfl⟩

theorem extends_take (n : ℕ) : Extends (take n) := by
  intro bytes front rest h extra
  unfold take at h ⊢
  split_ifs at h with hn
  cases h
  rw [if_pos (by rw [List.length_append]; omega), List.take_append_of_le_length hn,
    List.drop_append_of_le_length hn]

theorem extends_repeated {item : ByteString → Option (α × ByteString)} (h : Extends item) (n : ℕ) :
    Extends (repeated item n) := by
  induction n with
  | zero => exact .some []
  | succ n ih => exact h.bind fun a => ih.bind fun as => .some (a :: as)

theorem extends_pair {item : ByteString → Option (α × ByteString)} (h : Extends item) :
    Extends (pair item) := h.bind fun a => h.bind fun b => .some (a, b)

end Extends

/-! ### Leading bytes -/

theorem extends_readNumber (w : ℕ) : Extends (readNumber w) := (extends_take w).map number

theorem extends_readObject (w : ℕ) (obj : ℕ → Object) : Extends (readObject w obj) :=
  (extends_readNumber w).map fun n => Head.object (obj n)

theorem extends_readCount (w : ℕ) (header : ℕ → Head) : Extends (readCount w header) :=
  (extends_readNumber w).map header

theorem extends_readRaw (n : ℕ) (obj : ByteString → Object) : Extends (readRaw n obj) :=
  (extends_take n).map fun s => Head.object (obj s)

theorem extends_readSized (w : ℕ) (obj : ByteString → Object) : Extends (readSized w obj) :=
  (extends_readNumber w).bind fun n => extends_readRaw n obj

theorem extends_readExt (n : ℕ) : Extends (readExt n) :=
  (extends_readNumber 1).bind fun type => extends_readRaw n (.ext (UInt8.ofNat type).toInt8)

/-- A leading byte and what belongs to it. -/
theorem extends_head : Extends head := by
  rintro (_ | ⟨byte, bytes⟩) h rest hread extra
  · cases hread
  · rw [List.cons_append]
    simp only [head] at hread ⊢
    generalize byte.toNat = tag at hread ⊢
    split_ifs at hread ⊢
    · exact Extends.some _ _ _ _ hread extra
    · exact Extends.some _ _ _ _ hread extra
    · exact Extends.some _ _ _ _ hread extra
    · exact extends_readRaw _ _ _ _ _ hread extra
    · exact Extends.some _ _ _ _ hread extra
    · split at hread
      all_goals first
        | exact Extends.some _ _ _ _ hread extra
        | exact extends_readSized _ _ _ _ _ hread extra
        | exact extends_readObject _ _ _ _ _ hread extra
        | exact extends_readCount _ _ _ _ _ hread extra
        | exact extends_readExt _ _ _ _ hread extra
        | exact (extends_readNumber _).bind extends_readExt _ _ _ hread extra
        | cases hread

/-! ### Objects -/

theorem extends_decode (depth : ℕ) : Extends (decode depth) := by
  induction depth with
  | zero =>
    intro bytes obj rest h
    cases h
  | succ depth ih =>
    intro bytes obj rest h extra
    rw [decode] at h ⊢
    cases hhead : head bytes with
    | none =>
      rw [hhead] at h
      cases h
    | some p =>
      obtain ⟨hd, bytes'⟩ := p
      rw [hhead] at h
      rw [extends_head _ _ _ hhead extra]
      cases hd with
      | object obj' => exact Extends.some _ _ _ _ h extra
      | array n => exact (extends_repeated ih n).map Object.array _ _ _ h extra
      | map n => exact (extends_repeated (extends_pair ih) n).map Object.map _ _ _ h extra

/-- **The wire format streams.** The bound on the nesting depth grows with the buffer, which changes
nothing. -/
theorem streams : codec.Streams := by
  intro bytes obj rest h extra
  refine decode_mono (d := bytes.length) ?_ (extends_decode _ _ _ _ h extra)
  rw [List.length_append]
  omega

end Wire

end Msgpack
