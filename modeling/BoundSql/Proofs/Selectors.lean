/-
Selectors as they are written and as they are read.

A selector is written as its column and its nodes with an arrow between each two
of them. Reading takes any text whose parts between the arrows are not blank,
and cuts the blanks off the parts. So what is read is always proper, that is, no
part is empty, has blanks at its ends or an arrow inside; and a text is read as
a proper selector exactly if it is the selector's own text, up to blanks around
the parts (`Selector.parse_eq_ok_iff`).
-/
import BoundSql.Proofs.Arrows

namespace BoundSql

open Text (Arrowless blank trim)

namespace Selector

/-- A text that can stand between the arrows of a selector. -/
structure IsPart (t : Text) : Prop where
  ne_nil : t ≠ []
  trimmed : trim t = t
  arrowless : Arrowless t

/-- A column and at least one node, each of them a part. -/
structure Proper (s : Selector) : Prop where
  column : IsPart s.column
  nodes : ∀ node ∈ s.nodes, IsPart node
  nodes_ne_nil : s.nodes ≠ []

/-- A text is a selector's parts with arrows between them and perhaps blanks
around each of them. -/
def SpelledBy (s : Selector) (t : Text) : Prop :=
  ∃ parts, t = Text.joined "->" parts ∧ parts.map trim = s.column :: s.nodes

theorem isPart_trim {t : Text} (hblank : blank t = false) (h : Arrowless t) : IsPart (trim t) :=
  ⟨Text.trim_ne_nil.mpr hblank, Text.trim_trim t, Text.arrowless_trim_iff.mpr h⟩

theorem IsPart.not_blank {t : Text} (h : IsPart t) : blank t = false :=
  Text.trim_ne_nil.mp (by rw [h.trimmed]; exact h.ne_nil)

theorem Proper.isPart {s : Selector} (h : s.Proper) : ∀ part ∈ s.column :: s.nodes, IsPart part :=
  List.forall_mem_cons.mpr ⟨h.column, h.nodes⟩

theorem Proper.spelledBy_text {s : Selector} (h : s.Proper) : s.SpelledBy s.text := by
  refine ⟨s.column :: s.nodes, rfl, ?_⟩
  have htrim : ∀ part ∈ s.column :: s.nodes, trim part = part := fun part hp => (h.isPart part hp).trimmed
  rw [List.map_congr_left htrim, List.map_id']

/-! ## Reading -/

theorem readable_iff {t : Text} :
    readable t = true ↔ 2 ≤ (splitArrows t).length ∧ ∀ part ∈ splitArrows t, blank part = false := by
  simp [readable]

theorem readable_of_arrowless {t : Text} (h : Arrowless t) : readable t = false := by
  rw [readable, splitArrows_of_arrowless h]
  rfl

/-- Parts that are not blank are all it takes. -/
theorem ofParts_eq_ok {column : Text} {nodes : List Text} (hcolumn : blank column = false)
    (hnodes : ∀ node ∈ nodes, blank node = false) (hne : nodes ≠ []) :
    ofParts column nodes = .ok ⟨column, nodes⟩ := by
  have hany : nodes.any blank = false := List.any_eq_false.mpr fun node hn => by simp [hnodes node hn]
  have hempty : nodes.isEmpty = false := by simpa using hne
  simp [ofParts, hcolumn, hany, hempty]

theorem parse_of_unreadable {t : Text} (h : readable t = false) :
    parse t = .error (.selector (.unreadable t)) := by
  rw [parse, h]
  rfl

/-- A text that is readable is read: the checks that follow find nothing else. -/
theorem parse_of_readable {t : Text} (h : readable t = true) :
    ∃ column nodes, parse t = .ok ⟨column, nodes⟩ ∧ (splitArrows t).map trim = column :: nodes ∧
      nodes ≠ [] := by
  obtain ⟨hlength, hparts⟩ := readable_iff.mp h
  rw [parse, if_pos h]
  cases hsplit : splitArrows t with
  | nil => exact absurd hsplit (splitArrows_ne_nil t)
  | cons column nodes =>
    rw [hsplit] at hlength hparts
    have hblank : ∀ part ∈ column :: nodes, blank (trim part) = false := by
      intro part hp
      rw [Text.blank_trim]
      exact hparts part hp
    have hne : nodes.map trim ≠ [] := by
      intro hnil
      rw [List.map_eq_nil_iff] at hnil
      rw [hnil] at hlength
      simp at hlength
    have hnodes : ∀ node ∈ nodes.map trim, blank node = false :=
      List.forall_mem_map.mpr fun node hn => hblank node (List.mem_cons_of_mem column hn)
    exact ⟨trim column, nodes.map trim, ofParts_eq_ok (hblank column List.mem_cons_self) hnodes hne, rfl, hne⟩

theorem exists_parse_iff {t : Text} : (∃ s, parse t = .ok s) ↔ readable t = true := by
  constructor
  · rintro ⟨s, hs⟩
    cases hreadable : readable t with
    | true => rfl
    | false =>
      rw [parse_of_unreadable hreadable] at hs
      cases hs
  · intro h
    obtain ⟨column, nodes, hs, -⟩ := parse_of_readable h
    exact ⟨⟨column, nodes⟩, hs⟩

/-- A text is read as a selector exactly if the selector is proper and the text
spells it. -/
theorem parse_eq_ok_iff {t : Text} {s : Selector} : parse t = .ok s ↔ s.Proper ∧ s.SpelledBy t := by
  constructor
  · intro h
    have hreadable := exists_parse_iff.mp ⟨s, h⟩
    obtain ⟨column, nodes, hs, hparts, hne⟩ := parse_of_readable hreadable
    obtain rfl : ⟨column, nodes⟩ = s := Except.ok.inj (hs.symm.trans h)
    have hpart : ∀ part ∈ column :: nodes, IsPart part := by
      rw [← hparts]
      refine List.forall_mem_map.mpr fun part hp => ?_
      exact isPart_trim ((readable_iff.mp hreadable).2 part hp) (arrowless_of_mem_splitArrows hp)
    obtain ⟨hcolumn, hnodes⟩ := List.forall_mem_cons.mp hpart
    exact ⟨⟨hcolumn, hnodes, hne⟩, splitArrows t, (joined_splitArrows t).symm, hparts⟩
  · rintro ⟨hs, parts, rfl, hparts⟩
    have hpart : ∀ part ∈ parts, IsPart (trim part) := by
      intro part hp
      exact hs.isPart _ (hparts ▸ List.mem_map_of_mem hp)
    have hlength := congrArg List.length hparts
    rw [List.length_map, List.length_cons] at hlength
    have hnodes := List.length_pos_iff.mpr hs.nodes_ne_nil
    have hne : parts ≠ [] := List.ne_nil_of_length_pos (by omega)
    -- the blanks around a part are no part of an arrow, so the text is cut where it was joined
    have hsplit : splitArrows (Text.joined "->" parts) = parts :=
      splitArrows_joined hne fun part hp => Text.arrowless_trim_iff.mp (hpart part hp).arrowless
    have hreadable : readable (Text.joined "->" parts) = true := by
      rw [readable_iff, hsplit]
      refine ⟨by omega, fun part hp => ?_⟩
      rw [← Text.blank_trim]
      exact (hpart part hp).not_blank
    obtain ⟨column, nodes, hread, hmap, -⟩ := parse_of_readable hreadable
    rw [hsplit, hparts] at hmap
    obtain ⟨rfl, rfl⟩ := List.cons.inj hmap
    exact hread

theorem parse_text {s : Selector} (h : s.Proper) : parse s.text = .ok s :=
  parse_eq_ok_iff.mpr ⟨h, h.spelledBy_text⟩

/-- **Selectors are read as they are written.** A text is read exactly if it is
readable. What is read is proper, it is what the text spells, and its own text
is read as the same again. And every proper selector, whatever characters its
parts begin or end with, is read from its text. -/
theorem read_as_written :
    (∀ t : Text, ((∃ s, parse t = .ok s) ↔ readable t = true) ∧
      ∀ s, parse t = .ok s → s.Proper ∧ s.SpelledBy t ∧ parse s.text = .ok s) ∧
    ∀ s : Selector, s.Proper → parse s.text = .ok s := by
  refine ⟨fun t => ⟨exists_parse_iff, fun s hs => ?_⟩, fun s => parse_text⟩
  obtain ⟨hproper, hspelled⟩ := parse_eq_ok_iff.mp hs
  exact ⟨hproper, hspelled, parse_text hproper⟩

/-- Parts that begin or end with half an arrow, and a spelling with blanks that
are not spaces. -/
theorem read_as_written_sample :
    let s : Selector := ⟨"meta-", [">seo", "-", ">-"]⟩
    let spelling : Text := "\u3000meta- ->>seo->\t-->>-\n"
    s.text = "meta-->>seo->-->>-".toList ∧ s.Proper ∧ parse s.text = .ok s ∧
      (∃ s', parse spelling = .ok s') ∧ s.SpelledBy spelling := by
  intro s spelling
  obtain ⟨hread, hwritten⟩ := read_as_written
  have hpart : ∀ part ∈ s.column :: s.nodes, part ≠ [] ∧ trim part = part ∧ Arrowless part := by decide
  have hproper : s.Proper :=
    ⟨⟨by decide, by decide, by decide⟩, fun node hn =>
      have ⟨hne, htrim, harrow⟩ := hpart node (List.mem_cons_of_mem _ hn)
      ⟨hne, htrim, harrow⟩, by decide⟩
  obtain ⟨hreadable, hspells⟩ := hread spelling
  have hspelling : parse spelling = .ok s := rfl
  exact ⟨rfl, hproper, hwritten s hproper, hreadable.mpr (by decide), (hspells s hspelling).2.1⟩

end Selector

end BoundSql
