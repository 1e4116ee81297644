import VpnTunnel.Config.Basic
import VpnTunnel.Proofs.Text.Names
import VpnTunnel.Proofs.Text.Pieces

/-!
# Texts that survive on the wire

Free text is written into a line as it is. These are the texts, and the configurations with such
texts, that a line can hold; and apart from them the values that would leave a line without a value.
-/

namespace VpnTunnel

open Text (Clean Item)

/-- A text that a line carries unchanged behind its equals sign. -/
def WireSafe (s : String) : Prop :=
  s ≠ "" ∧ Text.trim s.toList = s.toList ∧ '#' ∉ s.toList ∧ '\n' ∉ s.toList

def AppName (s : String) : Prop := WireSafe s ∧ ',' ∉ s.toList

theorem toList_ne_nil {s : String} (h : s ≠ "") : s.toList ≠ [] := by
  intro hnil
  exact h (String.toList_eq_nil_iff.mp hnil)

theorem clean_toList_iff {s : String} : Clean s.toList ↔ s = "" ∨ WireSafe s := by
  constructor
  · intro h
    by_cases hempty : s = ""
    · exact .inl hempty
    · exact .inr ⟨hempty, h.trimmed, h.no_comment, h.no_break⟩
  · rintro (rfl | ⟨_, htrim, hcomment, hbreak⟩)
    · exact Text.clean_nil
    · exact ⟨htrim, hcomment, hbreak⟩

/-- A line carries a text unchanged just when the text is clean and not empty. -/
theorem wireSafe_iff {s : String} : WireSafe s ↔ Clean s.toList ∧ s ≠ "" := by
  rw [clean_toList_iff]
  constructor
  · intro h
    exact ⟨.inr h, h.1⟩
  · rintro ⟨hempty | h, hne⟩
    · exact absurd hempty hne
    · exact h

namespace AppName

variable {s : String}

theorem clean (h : AppName s) : Clean s.toList := (wireSafe_iff.mp h.1).1

theorem item (h : AppName s) : Item s.toList := ⟨toList_ne_nil h.1.1, h.1.2.1, h.2⟩

end AppName

/-- An item of a list that is clean is a name. -/
theorem appName_ofList {w : List Char} (hitem : Item w) (hclean : Clean w) :
    AppName (String.ofList w) := by
  have hne : String.ofList w ≠ "" := by
    intro h
    apply hitem.ne_nil
    rw [← String.toList_ofList (l := w), h]
    rfl
  have hlist : (String.ofList w).toList = w := String.toList_ofList
  rw [AppName, wireSafe_iff, hlist]
  exact ⟨⟨hclean, hne⟩, hitem.no_comma⟩

namespace Obfuscation

def WireSafe (o : Obfuscation) : Prop :=
  VpnTunnel.WireSafe o.h1 ∧ VpnTunnel.WireSafe o.h2 ∧ VpnTunnel.WireSafe o.h3 ∧
    VpnTunnel.WireSafe o.h4 ∧ (o.i1 = "" ∨ VpnTunnel.WireSafe o.i1)

structure Clean (o : Obfuscation) : Prop where
  h1 : Text.Clean o.h1.toList
  h2 : Text.Clean o.h2.toList
  h3 : Text.Clean o.h3.toList
  h4 : Text.Clean o.h4.toList
  i1 : Text.Clean o.i1.toList

/-- No header would leave its line without a value. -/
def Filled (o : Obfuscation) : Prop := o.h1 ≠ "" ∧ o.h2 ≠ "" ∧ o.h3 ≠ "" ∧ o.h4 ≠ ""

theorem wireSafe_iff_clean_filled {o : Obfuscation} : o.WireSafe ↔ o.Clean ∧ o.Filled := by
  rw [WireSafe, ← clean_toList_iff]
  simp only [wireSafe_iff, Filled]
  constructor
  · rintro ⟨⟨c1, n1⟩, ⟨c2, n2⟩, ⟨c3, n3⟩, ⟨c4, n4⟩, c5⟩
    exact ⟨⟨c1, c2, c3, c4, c5⟩, n1, n2, n3, n4⟩
  · rintro ⟨⟨c1, c2, c3, c4, c5⟩, n1, n2, n3, n4⟩
    exact ⟨⟨c1, n1⟩, ⟨c2, n2⟩, ⟨c3, n3⟩, ⟨c4, n4⟩, c5⟩

theorem clean_blank : blank.Clean :=
  ⟨Text.clean_nil, Text.clean_nil, Text.clean_nil, Text.clean_nil, Text.clean_nil⟩

end Obfuscation

namespace AppBinding

def names? : AppBinding → Option NameSet
  | all => none
  | only apps => some apps
  | allBut apps => some apps

/-- The list of the binding names an application, and a line carries each name. -/
def WireSafe (b : AppBinding) : Prop :=
  ∀ apps, b.names? = some apps → apps.toList ≠ [] ∧ ∀ name ∈ apps.toList, AppName name

def Clean (b : AppBinding) : Prop :=
  ∀ apps, b.names? = some apps → ∀ name ∈ apps.toList, AppName name

def Filled (b : AppBinding) : Prop := b ≠ only .empty ∧ b ≠ allBut .empty

theorem filled_iff {b : AppBinding} :
    b.Filled ↔ ∀ apps, b.names? = some apps → apps.toList ≠ [] := by
  cases b <;> simp [Filled, names?, NameSet.toList_eq_nil_iff]

/-- Lines carry a binding just when its names are clean and no list is empty. -/
theorem wireSafe_iff_clean_filled {b : AppBinding} : b.WireSafe ↔ b.Clean ∧ b.Filled := by
  rw [filled_iff]
  constructor
  · intro h
    exact ⟨fun apps ha => (h apps ha).2, fun apps ha => (h apps ha).1⟩
  · rintro ⟨hclean, hfilled⟩ apps ha
    exact ⟨hfilled apps ha, hclean apps ha⟩

end AppBinding

namespace Interface

/-- There is an address, and a line carries each text. -/
def WireSafe (i : Interface) : Prop :=
  i.addresses ≠ [] ∧ (∀ o, i.obfuscation = some o → o.WireSafe) ∧ i.apps.WireSafe

/-- The texts are such as reading produces. -/
structure Clean (i : Interface) : Prop where
  obfuscation : ∀ o, i.obfuscation = some o → o.Clean
  apps : i.apps.Clean

structure Filled (i : Interface) : Prop where
  addresses : i.addresses ≠ []
  obfuscation : ∀ o, i.obfuscation = some o → o.Filled
  apps : i.apps.Filled

/-- Lines carry an interface just when its texts are clean and none is left empty. -/
theorem wireSafe_iff_clean_filled {i : Interface} : i.WireSafe ↔ i.Clean ∧ i.Filled := by
  simp only [WireSafe, Obfuscation.wireSafe_iff_clean_filled, AppBinding.wireSafe_iff_clean_filled]
  constructor
  · rintro ⟨haddresses, hobfuscation, happs⟩
    exact ⟨⟨fun o ho => (hobfuscation o ho).1, happs.1⟩, haddresses,
      fun o ho => (hobfuscation o ho).2, happs.2⟩
  · rintro ⟨hclean, hfilled⟩
    exact ⟨hfilled.addresses, fun o ho => ⟨hclean.obfuscation o ho, hfilled.obfuscation o ho⟩,
      hclean.apps, hfilled.apps⟩

end Interface

end VpnTunnel
