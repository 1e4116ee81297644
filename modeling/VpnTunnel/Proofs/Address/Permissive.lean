import Mathlib.Logic.Relation
import VpnTunnel.Proofs.Address.Canonical
import VpnTunnel.Proofs.Address.Specifiers
import VpnTunnel.Proofs.Address.Written

/-!
# Reading specifiers permissively

A list of specifiers is read as the blocks that its members name, in the order of first mention.
Unreadable members and later mentions do not count, however a block is written, and a list of blocks
that was read is read again from its texts.
-/

namespace VpnTunnel

namespace Ipv4Block

theorem first_trunc (b : Ipv4Block) : b.trunc.first = b.first :=
  congrArg (· * b.size) (Nat.mul_div_cancel _ b.size_pos)

theorem trunc_trunc (b : Ipv4Block) : b.trunc.trunc = b.trunc := by
  simp only [trunc, mk.injEq, Ipv4.mk.injEq, and_true]
  exact b.first_trunc

theorem mem_trunc {a : Ipv4} {b : Ipv4Block} : a ∈ b.trunc ↔ a ∈ b := by
  have hsize : b.trunc.size = b.size := rfl
  rw [mem_def, mem_def, last, last, first_trunc, hsize]

theorem trunc_single (a : Ipv4) : (single a).trunc = single a := by
  have hfirst : (single a).first = a.toNat := by simp [first, size, single]
  simp only [trunc, hfirst]
  rfl

/-- With their host bits cleared two ways to write a block are the same. -/
theorem trunc_eq_of_mem_iff {b c : Ipv4Block} (h : ∀ a, a ∈ b ↔ a ∈ c) : b.trunc = c.trunc := by
  apply eq_of_mem_iff b.trunc_trunc c.trunc_trunc
  intro a
  rw [mem_trunc, mem_trunc, h]

/-- The text of a block has a slash. -/
theorem slash_mem_of_ofChars? {s : List Char} {b : Ipv4Block} (h : ofChars? s = some b) :
    '/' ∈ s := by
  by_contra hno
  have hsplit : splitSlash? s = none := by rw [splitSlash?, List.splitOn_eq_singleton hno]
  simp [ofChars?, hsplit] at h

end Ipv4Block

namespace Specifier

theorem trunc_of_read? {spec : String} {b : Ipv4Block} (h : read? spec = some b) :
    b.trunc = b := by
  rw [read?, readTrimmed?] at h
  split at h
  · obtain ⟨c, _, rfl⟩ := Option.map_eq_some_iff.mp h
    exact c.trunc_trunc
  · obtain ⟨a, _, rfl⟩ := Option.map_eq_some_iff.mp h
    exact Ipv4Block.trunc_single a

theorem readTrimmed?_of_block {s : List Char} {b : Ipv4Block} (h : Ipv4Block.ofChars? s = some b) :
    readTrimmed? s = some b.trunc := by
  rw [readTrimmed?, if_pos (Ipv4Block.slash_mem_of_ofChars? h), h]
  rfl

/-- A block with cleared host bits is read from its text. -/
theorem read?_toString {b : Ipv4Block} (h : b.trunc = b) : read? b.toString = some b := by
  have hplain : Text.Plain b.toChars := Block.plain_toChars (.v4 b)
  rw [read?, Ipv4Block.toString, String.toList_ofList, hplain.trim_eq,
    readTrimmed?_of_block b.ofChars?_toChars, h]

/-- The two specifiers are ways to write one block. -/
inductive Respelling (spec spec' : String) : Prop
  /-- Only the blanks at the ends differ. -/
  | spacing (h : Text.trim spec.toList = Text.trim spec'.toList)
  /-- Only the host bits differ: as blocks the two have the same members. -/
  | hostBits {b c : Ipv4Block} (hb : Ipv4Block.ofChars? (Text.trim spec.toList) = some b)
    (hc : Ipv4Block.ofChars? (Text.trim spec'.toList) = some c) (h : ∀ a, a ∈ b ↔ a ∈ c)
  /-- One is a bare address, the other has all its bits behind a slash. -/
  | bare {a : Ipv4} (ha : Ipv4.ofChars? .host (Text.trim spec.toList) = some a)
    (h : Text.trim spec'.toList = Text.trim spec.toList ++ ['/', '3', '2'])

/-- However a block is spelt, it is read as that block. -/
theorem read?_eq_of_respelling {spec spec' : String} (h : Respelling spec spec') :
    read? spec = read? spec' := by
  cases h with
  | spacing h => rw [read?, read?, h]
  | hostBits hb hc h =>
    rw [read?, read?, readTrimmed?_of_block hb, readTrimmed?_of_block hc,
      Ipv4Block.trunc_eq_of_mem_iff h]
  | @bare a ha h =>
    have hslash : '/' ∉ Text.trim spec.toList := by
      intro hmem
      rw [Ipv4.ofChars?_eq_none hmem (by decide) (by decide)] at ha
      cases ha
    have hblock : Ipv4Block.ofChars? (Text.trim spec'.toList) = some (.single a) := by
      rw [h, Ipv4Block.ofChars?, splitSlash?_append hslash (by decide)]
      simp only [Option.bind_eq_bind, Option.bind_some, Ipv4.ofChars?_block_of_host ha]
      rfl
    rw [read?, read?, readTrimmed?_of_block hblock, Ipv4Block.trunc_single, readTrimmed?,
      if_neg hslash, ha]
    rfl

/-- A specifier is inserted that does not count. -/
inductive Insertion : List String → List String → Prop
  /-- It is not readable. -/
  | unreadable (before : List String) {spec : String} (h : read? spec = none)
    (after : List String) : Insertion (before ++ after) (before ++ spec :: after)
  /-- It is read as one before it. -/
  | repetition {before : List String} {earlier spec : String} (hmem : earlier ∈ before)
    (h : read? spec = read? earlier) (after : List String) :
    Insertion (before ++ after) (before ++ spec :: after)

/-- A specifier that does not count may stand anywhere. -/
theorem readAll_of_insertion {specs specs' : List String} (h : Insertion specs specs') :
    readAll specs' = readAll specs := by
  cases h with
  | unreadable before h after =>
    rw [readAll, readAll, List.filterMap_append, List.filterMap_append,
      List.filterMap_cons_none h]
  | @repetition before earlier spec hmem h after =>
    rw [readAll, readAll, List.filterMap_append, List.filterMap_append]
    cases hread : read? spec with
    | none => rw [List.filterMap_cons_none hread]
    | some b =>
      have hb : b ∈ before.filterMap read? :=
        List.mem_filterMap.mpr ⟨earlier, hmem, h ▸ hread⟩
      rw [List.filterMap_cons_some hread, eraseDups_append_cons hb]

theorem readAll_of_insertions {specs specs' : List String}
    (h : Relation.ReflTransGen Insertion specs specs') : readAll specs' = readAll specs := by
  induction h with
  | refl => rfl
  | tail _ hinsert ih => exact (readAll_of_insertion hinsert).trans ih

/-- More specifiers add the blocks that are new, behind the others. -/
theorem readAll_append (specs more : List String) :
    readAll (specs ++ more) =
      readAll specs ++ (readAll more).filter (· ∉ readAll specs) := by
  rw [readAll, List.filterMap_append, eraseDups_append_filter]
  rfl

/-- Blocks without host bits are read back from their texts. -/
theorem readAll_map_toString {bs : List Ipv4Block} (hnodup : bs.Nodup)
    (htrunc : ∀ b ∈ bs, b.trunc = b) : readAll (bs.map Ipv4Block.toString) = bs := by
  have hread : (bs.map Ipv4Block.toString).filterMap read? = bs := by
    have hsome : bs.filterMap (read? ∘ Ipv4Block.toString) = bs.filterMap some := by
      apply List.filterMap_congr
      intro b hb
      rw [Function.comp_apply, read?_toString (htrunc b hb)]
    rw [List.filterMap_map, hsome, List.filterMap_some]
  rw [readAll, hread, eraseDups_of_nodup hnodup]

/-- What a list of specifiers is read as: the blocks that they name, with cleared host bits, each
once and in the order of first mention. Specifiers that are not readable, and later mentions of a
block in whatever spelling, can be put in anywhere. What is read of more specifiers is added behind,
as far as it is new, and the texts of the blocks are read as the blocks. -/
theorem readAll_first_mentions (specs : List String) :
    FirstMentions read? specs (readAll specs) ∧
    (readAll specs).Nodup ∧
    (∀ b ∈ readAll specs, b.trunc = b) ∧
    (∀ specs', Relation.ReflTransGen Insertion specs specs' → readAll specs' = readAll specs) ∧
    (∀ spec spec', Respelling spec spec' → read? spec = read? spec') ∧
    (∀ more, readAll (specs ++ more) =
      readAll specs ++ (readAll more).filter (· ∉ readAll specs)) ∧
    readAll ((readAll specs).map Ipv4Block.toString) = readAll specs := by
  have hmentions : FirstMentions read? specs (readAll specs) := firstMentions_eraseDups read? specs
  have htrunc : ∀ b ∈ readAll specs, b.trunc = b := by
    intro b hb
    obtain ⟨spec, _, hspec⟩ := (hmentions.mem_iff b).mp hb
    exact trunc_of_read? hspec
  exact ⟨hmentions, hmentions.nodup, htrunc, fun _ => readAll_of_insertions,
    fun _ _ => read?_eq_of_respelling, readAll_append specs,
    readAll_map_toString hmentions.nodup htrunc⟩

/-- Host bits and blanks make no difference, and what is no address is passed over. -/
theorem readAll_of_respelled :
    Respelling " 10.1.2.3/8" "10.0.0.0/8" ∧
    Relation.ReflTransGen Insertion ["10.0.0.0/8"] ["10.0.0.0/8", "example.com", " 10.1.2.3/8"] ∧
    readAll ["10.0.0.0/8", "example.com", " 10.1.2.3/8"] = readAll ["10.0.0.0/8"] := by
  have hmem : ∀ a, a ∈ (⟨.ofOctets 10 1 2 3, 8, by decide⟩ : Ipv4Block) ↔
      a ∈ (⟨.ofOctets 10 0 0 0, 8, by decide⟩ : Ipv4Block) := by
    intro a
    rw [Ipv4Block.mem_iff_div_eq, Ipv4Block.mem_iff_div_eq]
    exact Iff.rfl
  have hspelling : Respelling " 10.1.2.3/8" "10.0.0.0/8" := .hostBits rfl rfl hmem
  obtain ⟨-, -, -, hinsert, hrespelling, -, -⟩ := readAll_first_mentions ["10.0.0.0/8"]
  have hunreadable : Insertion ["10.0.0.0/8"] ["10.0.0.0/8", "example.com"] :=
    .unreadable ["10.0.0.0/8"] rfl []
  have hrepetition : Insertion ["10.0.0.0/8", "example.com"]
      ["10.0.0.0/8", "example.com", " 10.1.2.3/8"] :=
    @Insertion.repetition ["10.0.0.0/8", "example.com"] _ _ List.mem_cons_self
      (hrespelling _ _ hspelling) []
  have hinsertions := (Relation.ReflTransGen.single hunreadable).tail hrepetition
  exact ⟨hspelling, hinsertions, hinsert _ hinsertions⟩

end Specifier

end VpnTunnel
