import Mathlib.Data.List.Forall2
import SwagOS.Boot.Multiboot
import SwagOS.Lib.Layout

/-!
# The tags of the multiboot information

What a boot loader writes: tags that start at multiples of eight bytes, up to the end tag.  Each of
the three walks finds the first tag of its type.
-/

namespace SwagOS.Boot

open SwagOS.Lib SwagOS.Mem

/-- A tag with what is behind its header, and the bytes up to the next tag. -/
structure BootTag where
  type : Nat
  payload : List UInt8
  padding : List UInt8
  notEnd : type ≠ multibootTagTypeEnd
  type_lt : type < 2 ^ 32
  size_lt : payload.length + 15 < 2 ^ 32
  short : padding.length < 8
  aligned : (payload.length + padding.length) % 8 = 0

namespace BootTag

def size (tag : BootTag) : Nat := 8 + tag.payload.length

def bytes (tag : BootTag) : List UInt8 :=
  leBytes 4 tag.type ++ (leBytes 4 tag.size ++ (tag.payload ++ tag.padding))

theorem length_bytes (tag : BootTag) : tag.bytes.length = (tag.size + 7) / 8 * 8 := by
  have short := tag.short
  have aligned := tag.aligned
  rw [bytes, List.length_append, List.length_append, List.length_append, length_leBytes,
    length_leBytes, size]
  omega

end BootTag

def encodeTags (info : List BootTag) : List UInt8 :=
  info.flatMap BootTag.bytes ++ (leBytes 4 multibootTagTypeEnd ++ leBytes 4 8)

variable {m : Bytes} {place : Nat} {tag : BootTag} {info : List BootTag}

theorem BootTag.read (has : m.Has place tag.bytes) : tagType m place = tag.type ∧
    tagSize m place = tag.size ∧ nextTag m place = place + tag.bytes.length ∧
    m.Has (place + 8) tag.payload := by
  have type : tagType m place = tag.type := has.left.u32.trans (Nat.mod_eq_of_lt tag.type_lt)
  have rest := has.right
  rw [length_leBytes] at rest
  have fits := tag.size_lt
  have size : tagSize m place = tag.size := by
    refine rest.left.u32.trans (Nat.mod_eq_of_lt ?_)
    rw [BootTag.size]
    omega
  refine ⟨type, size, ?_, ?_⟩
  · rw [nextTag, size, tag.length_bytes, Nat.mod_eq_of_lt]
    rw [BootTag.size]
    omega
  · have payload := rest.right.left
    rwa [length_leBytes] at payload

theorem trail_of_has (has : m.Has place (encodeTags info)) :
    ∃ places, Trail (nextTag m) (fun tag => tagType m tag = multibootTagTypeEnd) place places ∧
      List.Forall₂ (fun tag place => m.Has place tag.bytes) info places := by
  induction info generalizing place with
  | nil =>
    refine ⟨[], .nil ?_, .nil⟩
    have ends : m.Has place (leBytes 4 multibootTagTypeEnd ++ leBytes 4 8) := has
    exact ends.left.u32
  | cons tag info inductionHypothesis =>
    rw [encodeTags, List.flatMap_cons, List.append_assoc] at has
    obtain ⟨type, -, next, -⟩ := BootTag.read has.left
    obtain ⟨places, trail, each⟩ := inductionHypothesis has.right
    rw [← next] at trail
    refine ⟨place :: places, .cons ?_ trail, .cons has.left each⟩
    rw [type]
    exact tag.notEnd

theorem find?_rel {α β : Type} {R : α → β → Prop} {test : α → Bool} {test' : β → Bool}
    {l : List α} {l' : List β} (related : List.Forall₂ R l l')
    (same : ∀ a b, R a b → test a = test' b) : Option.Rel R (l.find? test) (l'.find? test') := by
  induction related with
  | nil => exact .none
  | @cons a b l l' here _ inductionHypothesis =>
    rw [List.find?_cons, List.find?_cons, ← same a b here]
    cases test a with
    | true => exact .some here
    | false => exact inductionHypothesis

theorem findTag_encodeTags {addr fuel : Nat} (aligned : addr % 8 = 0)
    (has : m.Has (addr + 8) (encodeTags info)) (enough : info.length < fuel)
    (wanted : Nat → Prop) [DecidablePred wanted] :
    ∃ found, findTag m wanted fuel addr = .ok found ∧
      Option.Rel (fun tag place => m.Has place tag.bytes)
        (info.find? fun tag => wanted tag.type) found := by
  obtain ⟨places, trail, each⟩ := trail_of_has has
  refine ⟨_, (if_neg (not_not.mpr aligned)).trans (trail.walk ?_), find?_rel each ?_⟩
  · rwa [← each.length_eq]
  · intro tag place has
    rw [(BootTag.read has).1]

end SwagOS.Boot
