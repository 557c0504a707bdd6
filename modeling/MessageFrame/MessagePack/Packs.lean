import Mathlib.Data.List.Forall2
import MessageFrame.ForMathlib.Proc
import MessageFrame.MessagePack.Basic

/-!
# Procedures that pack an object

`Packs M x obj` says that a procedure on an output buffer appends bytes to it from which the
unpacker of a lawful library reads exactly `obj` back. The rules follow the shape of packing
code: a single packer call, an array header followed by one statement for each element, a map
header followed by a key and a value for each pair. Loops are covered because a loop is the
sequence of its rounds (`forEach_map`).
-/

namespace Msgpack

open Proc

/-- The procedure appends an encoding of the object to its output buffer. -/
def Packs (M : Codec) (x : Proc ByteString Unit) (obj : Object) : Prop :=
  ∃ bytes, M.Decodes bytes obj ∧ ∀ buf, x buf = .returned () (buf ++ bytes)

variable {M : Codec} {same : Double → Double → Prop}

/-- A procedure packs at most one object. -/
theorem Packs.unique {x : Proc ByteString Unit} {obj obj' : Object} (h : Packs M x obj)
    (h' : Packs M x obj') : obj = obj' := by
  obtain ⟨bytes, hdec, hrun⟩ := h
  obtain ⟨bytes', hdec', hrun'⟩ := h'
  have hbytes : bytes = bytes' := by
    have hsame := (hrun []).symm.trans (hrun' [])
    rw [List.nil_append, List.nil_append] at hsame
    exact (Outcome.returned.inj hsame).2
  subst hbytes
  have hread := (hdec []).symm.trans (hdec' [])
  exact (Prod.mk.inj (Option.some.inj hread)).1

/-- The procedure always appends the same bytes to its output buffer. -/
def Appends (x : Proc ByteString Unit) : Prop :=
  ∃ bytes, ∀ buf, x buf = .returned () (buf ++ bytes)

theorem Packs.appends {x : Proc ByteString Unit} {obj : Object} (h : Packs M x obj) :
    Appends x := by
  obtain ⟨bytes, -, hrun⟩ := h
  exact ⟨bytes, hrun⟩

theorem Appends.modify (bytes : ByteString) : Appends (Proc.modify (· ++ bytes)) :=
  ⟨bytes, fun _ => rfl⟩

theorem Appends.bind {x y : Proc ByteString Unit} (hx : Appends x) (hy : Appends y) :
    Appends (x >>= fun _ => y) := by
  obtain ⟨bytes, hx⟩ := hx
  obtain ⟨bytes', hy⟩ := hy
  refine ⟨bytes ++ bytes', fun buf => ?_⟩
  rw [bind_of_returned (hx buf), hy, List.append_assoc]

theorem Appends.forEach {α : Type} {body : α → Proc ByteString Unit} {as : List α}
    (h : ∀ a ∈ as, Appends (body a)) : Appends (Proc.forEach body as) := by
  induction as with
  | nil => exact ⟨[], fun buf => by rw [forEach_nil, List.append_nil]⟩
  | cons a as ih =>
    rw [forEach_cons]
    exact (h a List.mem_cons_self).bind (ih fun b hb => h b (List.mem_cons_of_mem a hb))

/-- What is appended behind an encoding is left over when the object is read. -/
theorem Packs.followed {x y : Proc ByteString Unit} {obj : Object} (hx : Packs M x obj)
    (hy : Appends y) : ∃ bytes extra, M.Decodes bytes obj ∧
      ∀ buf, (x >>= fun _ => y) buf = .returned () (buf ++ (bytes ++ extra)) := by
  obtain ⟨bytes, hdec, hx⟩ := hx
  obtain ⟨extra, hy⟩ := hy
  refine ⟨bytes, extra, hdec, fun buf => ?_⟩
  rw [bind_of_returned (hx buf), hy, List.append_assoc]

/-- One call of a packer. -/
theorem packs_append {bytes : ByteString} {obj : Object} (h : M.Decodes bytes obj) :
    Packs M (Proc.modify (· ++ bytes)) obj := ⟨bytes, h, fun _ => rfl⟩

/-- A string, unless its length exceeds 32 bits. -/
theorem packs_string (hM : M.Lawful same) {s : ByteString} (h : s.length < 2 ^ 32) :
    Packs M (Proc.orThrow (M.packString s) >>= fun bytes => Proc.modify (· ++ bytes))
      (.str s) := by
  obtain ⟨bytes, hpack, hdec⟩ := hM.string s h
  rw [hpack]
  exact packs_append hdec

/-- A byte array: its header and then its body. -/
theorem packs_bin (hM : M.Lawful same) {b : ByteString} (h : b.length < 2 ^ 32) :
    Packs M (Proc.modify (· ++ M.packBin b.length.toUInt32) >>= fun _ =>
      Proc.modify (· ++ M.packBinBody b b.length.toUInt32)) (.bin b) := by
  refine ⟨_, hM.bin b h, fun buf => ?_⟩
  rw [modify_bind, modify_apply, List.append_assoc]

/-- Statements that each pack an object append the encodings of the objects. -/
private theorem exists_items {xs : List (Proc ByteString Unit)} {objs : List Object}
    (h : List.Forall₂ (Packs M) xs objs) :
    ∃ items : List (ByteString × Object), items.map Prod.snd = objs ∧
      (∀ i ∈ items, M.Decodes i.1 i.2) ∧
      ∀ buf, Proc.forEach (fun x => x) xs buf =
        .returned () (buf ++ (items.map Prod.fst).flatten) := by
  induction h with
  | nil => exact ⟨[], rfl, by simp, fun buf => by simp⟩
  | @cons x obj xs objs hx _ ih =>
    obtain ⟨bytes, hdec, hrun⟩ := hx
    obtain ⟨items, hsnd, hall, hloop⟩ := ih
    refine ⟨(bytes, obj) :: items, by rw [List.map_cons, hsnd], ?_, fun buf => ?_⟩
    · exact List.forall_mem_cons.mpr ⟨hdec, hall⟩
    · rw [forEach_cons, bind_of_returned (hrun buf), hloop]
      simp

/-- **An array**: the header, and one statement for each element. -/
theorem packs_array (hM : M.Lawful same) {l : List (Proc ByteString Unit)} {r : List Object}
    (h : List.Forall₂ (Packs M) l r) (hlen : l.length < 2 ^ 32) :
    Packs M (Proc.modify (· ++ M.packArray l.length.toUInt32) >>= fun _ =>
      Proc.forEach (fun x => x) l) (.array r) := by
  obtain ⟨items, hsnd, hall, hloop⟩ := exists_items h
  have hcount : items.length = l.length := by
    rw [h.length_eq, ← hsnd, List.length_map]
  have hdec := hM.array items (hcount ▸ hlen) hall
  rw [hsnd, hcount] at hdec
  refine ⟨_, hdec, fun buf => ?_⟩
  rw [modify_bind, hloop, List.append_assoc]

/-- **A map**: the header, and for each pair a statement for the key and one for the value. -/
theorem packs_map (hM : M.Lawful same)
    {xs : List (Proc ByteString Unit × Proc ByteString Unit)} {pairs : List (Object × Object)}
    (h : List.Forall₂ (fun x pair => Packs M x.1 pair.1 ∧ Packs M x.2 pair.2) xs pairs)
    (hlen : xs.length < 2 ^ 32) :
    Packs M (Proc.modify (· ++ M.packMap xs.length.toUInt32) >>= fun _ =>
      Proc.forEach (fun x => x.1 >>= fun _ => x.2) xs) (.map pairs) := by
  obtain ⟨items, hsnd, hall, hloop⟩ : ∃ items : List ((ByteString × Object) × ByteString × Object),
      (items.map fun i => (i.1.2, i.2.2)) = pairs ∧
      (∀ i ∈ items, M.Decodes i.1.1 i.1.2 ∧ M.Decodes i.2.1 i.2.2) ∧
      ∀ buf, Proc.forEach (fun x => x.1 >>= fun _ => x.2) xs buf =
        .returned () (buf ++ (items.map fun i => i.1.1 ++ i.2.1).flatten) := by
    clear hlen
    induction h with
    | nil => exact ⟨[], rfl, by simp, fun buf => by simp⟩
    | @cons x pair xs pairs hx _ ih =>
      obtain ⟨⟨key, hkey, hrunKey⟩, val, hval, hrunVal⟩ := hx
      obtain ⟨items, hsnd, hall, hloop⟩ := ih
      refine ⟨((key, pair.1), (val, pair.2)) :: items, by rw [List.map_cons, hsnd], ?_,
        fun buf => ?_⟩
      · exact List.forall_mem_cons.mpr ⟨⟨hkey, hval⟩, hall⟩
      · have hround : (x.1 >>= fun _ => x.2) buf = .returned () (buf ++ key ++ val) := by
          rw [bind_of_returned (hrunKey buf), hrunVal]
        rw [forEach_cons, bind_of_returned hround, hloop]
        simp
  have hcount : items.length = xs.length := by
    rw [h.length_eq, ← hsnd, List.length_map]
  have hdec := hM.map items (hcount ▸ hlen) hall
  rw [hsnd, hcount] at hdec
  refine ⟨_, hdec, fun buf => ?_⟩
  rw [modify_bind, hloop, List.append_assoc]

end Msgpack
