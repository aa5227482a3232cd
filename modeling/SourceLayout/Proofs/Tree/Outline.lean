import SourceLayout.Proofs.Text.Quoted
import SourceLayout.Proofs.Tree.Pointwise

/-! # An outline tells kinds and texts

The outline of a node is read from the front.  No two kinds begin with the same letter, a
quoted text shows where it ends, and what comes after the kind shows whether there is a text
and whether there are children: a space and a quote, or a space and a bracket.  The outlines
of children are followed by a comma or by the closing bracket, and nothing in an outline can
be taken for what follows it, since everything that a text may hold is behind its quotes.

So an outline tells the kind and the text of every node and nothing else
(`outline_eq_iff_matches`).  By induction on the first of two trees, with what follows the
outlines carried along: the parts of a node are cut off one after the other.
-/
namespace SourceLayout.Node

open Text (quotedChars quoteFor)

/-- Two nodes of one kind and one text, docs and children aside. -/
def SameHead (a b : Node) : Prop := a.kind = b.kind ∧ a.text = b.text

/-- The part of an outline that shows the text: a space and the quoted text, or nothing. -/
def textOutline : Option String → List Char
  | none => []
  | some text => ' ' :: quotedChars text.toList

/-- The outlines of nodes, each behind a comma. -/
def furtherOutlines : List (Located Node) → List Char
  | [] => []
  | child :: rest => ',' :: ' ' :: (child.value.outline.toList ++ furtherOutlines rest)

/-- The part of an outline that shows the children: their outlines in brackets, or nothing. -/
def childrenOutline : List (Located Node) → List Char
  | [] => []
  | child :: rest => ' ' :: '[' :: (child.value.outline.toList ++ (furtherOutlines rest ++ [']']))

/-! ## The parts of an outline -/

theorem toList_headOutline (kind : NodeKind) (text : Option String) :
    (headOutline kind text).toList = kind.name.toList ++ textOutline text := by
  cases text with
  | none => exact (List.append_nil _).symm
  | some text =>
    rw [headOutline, String.toList_append, String.toList_append, List.append_assoc,
      Text.toList_quoted]
    rfl

theorem toList_intercalate_forestOutlines (child : Located Node) (rest : List (Located Node)) :
    (", ".intercalate (forestOutlines (child :: rest))).toList =
      child.value.outline.toList ++ furtherOutlines rest := by
  rw [String.toList_intercalate, forestOutlines_eq_map, List.map_map]
  induction rest generalizing child with
  | nil => simp [furtherOutlines, List.intercalate_singleton]
  | cons next rest ih =>
    rw [List.map_cons, List.map_cons, List.intercalate_cons_cons, ← List.map_cons, ih next,
      List.append_assoc]
    rfl

/-- An outline shows the kind, the text and the children. -/
theorem toList_outline (kind : NodeKind) (text doc : Option String)
    (children : List (Located Node)) :
    (outline ⟨kind, text, doc, children⟩).toList =
      kind.name.toList ++ (textOutline text ++ childrenOutline children) := by
  cases children with
  | nil =>
    rw [outline, toList_headOutline, childrenOutline, List.append_nil]
  | cons child rest =>
    rw [outline, String.toList_append, String.toList_append, String.toList_append,
      toList_headOutline, toList_intercalate_forestOutlines, List.append_assoc, List.append_assoc,
      List.append_assoc, List.append_assoc]
    rfl

/-! ## What tells the parts apart -/

theorem head?_name_injective :
    Function.Injective fun kind : NodeKind => kind.name.toList.head? := by
  intro k l
  cases k <;> cases l <;> decide

/-- A kind is told by its first letter. -/
theorem name_append_inj {k l : NodeKind} {r s : List Char}
    (h : k.name.toList ++ r = l.name.toList ++ s) : k = l ∧ r = s := by
  have hletter : ∀ (kind : NodeKind) (rest : List Char),
      (kind.name.toList ++ rest).head? = kind.name.toList.head? := by
    intro kind rest
    cases kind <;> rfl
  have hkind : k = l := by
    apply head?_name_injective
    show k.name.toList.head? = l.name.toList.head?
    rw [← hletter k r, h, hletter]
  subst hkind
  exact ⟨rfl, List.append_cancel_left h⟩

/-- What can follow an outline: the next one behind a comma, the bracket behind the last one,
or nothing. -/
def FollowsOutline (r : List Char) : Prop := ∀ c ∈ r.head?, c = ',' ∨ c = ']'

theorem followsOutline_furtherOutlines (forest : List (Located Node)) (r : List Char) :
    FollowsOutline (furtherOutlines forest ++ ']' :: r) := by
  intro c hc
  cases forest with
  | nil => exact Or.inr (Option.some.inj hc).symm
  | cons child rest => exact Or.inl (Option.some.inj hc).symm

theorem FollowsOutline.ne_space_cons {r : List Char} (h : FollowsOutline r) (rest : List Char) :
    r ≠ ' ' :: rest := by
  rintro rfl
  rcases h ' ' rfl with hcomma | hbracket
  · exact absurd hcomma (by decide)
  · exact absurd hbracket (by decide)

/-- What follows the text of a node does not begin as the text does: a quote is no bracket. -/
theorem childrenOutline_append_ne {r : List Char} (h : FollowsOutline r)
    (children : List (Located Node)) (text : String) (s : List Char) :
    childrenOutline children ++ r ≠ textOutline (some text) ++ s := by
  cases children with
  | nil => exact h.ne_space_cons _
  | cons child rest =>
    intro he
    have hbracket : '[' = quoteFor text.toList := (List.cons.inj (List.cons.inj he).2).1
    rcases Text.isQuote_quoteFor text.toList with hquote | hquote
    · exact absurd (hbracket.trans hquote) (by decide)
    · exact absurd (hbracket.trans hquote) (by decide)

/-- The text of a node is told, and where it ends. -/
theorem textOutline_append_inj {a b : Option String} {as bs : List (Located Node)}
    {r s : List Char} (hr : FollowsOutline r) (hs : FollowsOutline s)
    (h : textOutline a ++ (childrenOutline as ++ r) = textOutline b ++ (childrenOutline bs ++ s)) :
    a = b ∧ childrenOutline as ++ r = childrenOutline bs ++ s := by
  cases a with
  | none =>
    cases b with
    | none => exact ⟨rfl, h⟩
    | some b => exact absurd h (childrenOutline_append_ne hr as b _)
  | some a =>
    cases b with
    | none => exact absurd h.symm (childrenOutline_append_ne hs bs a _)
    | some b =>
      obtain ⟨htext, hrest⟩ := Text.quotedChars_append_inj (List.cons.inj h).2
      exact ⟨congrArg some (String.toList_inj.mp htext), hrest⟩

/-! ## Outlines -/

mutual
/-- **An outline tells the kinds and the texts of a tree, and where it ends.** -/
theorem outline_append_inj : (a b : Node) → {r s : List Char} → FollowsOutline r →
    FollowsOutline s → a.outline.toList ++ r = b.outline.toList ++ s →
    Matches SameHead a b ∧ r = s
  | ⟨kind₁, text₁, doc₁, children₁⟩, ⟨kind₂, text₂, doc₂, children₂⟩, r, s, hr, hs, h => by
    simp only [toList_outline, List.append_assoc] at h
    obtain ⟨hkind, h⟩ := name_append_inj h
    obtain ⟨htext, h⟩ := textOutline_append_inj hr hs h
    obtain ⟨hchildren, h⟩ := childrenOutline_append_inj children₁ children₂ hr hs h
    exact ⟨⟨⟨hkind, htext⟩, hchildren⟩, h⟩
termination_by structural a => a

theorem childrenOutline_append_inj : (as bs : List (Located Node)) → {r s : List Char} →
    FollowsOutline r → FollowsOutline s →
    childrenOutline as ++ r = childrenOutline bs ++ s → MatchesIn SameHead as bs ∧ r = s
  | [], [], _, _, _, _, h => ⟨trivial, h⟩
  | [], _ :: _, _, _, hr, _, h => absurd h (hr.ne_space_cons _)
  | _ :: _, [], _, _, _, hs, h => absurd h.symm (hs.ne_space_cons _)
  | ⟨span₁, node₁⟩ :: rest₁, ⟨span₂, node₂⟩ :: rest₂, r, s, hr, hs, h => by
    simp only [childrenOutline, List.cons_append, List.append_assoc, List.nil_append] at h
    obtain ⟨hnode, h⟩ := outline_append_inj node₁ node₂
      (followsOutline_furtherOutlines rest₁ r) (followsOutline_furtherOutlines rest₂ s)
      (List.cons.inj (List.cons.inj h).2).2
    obtain ⟨hrest, h⟩ := furtherOutlines_append_inj rest₁ rest₂ h
    exact ⟨⟨hnode, hrest⟩, h⟩
termination_by structural as => as

theorem furtherOutlines_append_inj : (as bs : List (Located Node)) → {r s : List Char} →
    furtherOutlines as ++ ']' :: r = furtherOutlines bs ++ ']' :: s →
    MatchesIn SameHead as bs ∧ r = s
  | [], [], _, _, h => ⟨trivial, (List.cons.inj h).2⟩
  | [], _ :: _, _, _, h => absurd (List.cons.inj h).1 (by decide)
  | _ :: _, [], _, _, h => absurd (List.cons.inj h).1 (by decide)
  | ⟨span₁, node₁⟩ :: rest₁, ⟨span₂, node₂⟩ :: rest₂, r, s, h => by
    simp only [furtherOutlines, List.cons_append, List.append_assoc] at h
    obtain ⟨hnode, h⟩ := outline_append_inj node₁ node₂
      (followsOutline_furtherOutlines rest₁ r) (followsOutline_furtherOutlines rest₂ s)
      (List.cons.inj (List.cons.inj h).2).2
    obtain ⟨hrest, h⟩ := furtherOutlines_append_inj rest₁ rest₂ h
    exact ⟨⟨hnode, hrest⟩, h⟩
termination_by structural as => as
end

mutual
/-- Docs and spans have no part in an outline. -/
theorem outline_eq_of_matches : (a b : Node) → Matches SameHead a b → a.outline = b.outline
  | ⟨_, _, _, children₁⟩, ⟨_, _, _, children₂⟩, ⟨⟨hkind, htext⟩, hchildren⟩ => by
    obtain rfl := hkind
    obtain rfl := htext
    rw [← String.toList_inj, toList_outline, toList_outline,
      childrenOutline_eq_of_matchesIn children₁ children₂ hchildren]
termination_by structural a => a

theorem childrenOutline_eq_of_matchesIn : (as bs : List (Located Node)) →
    MatchesIn SameHead as bs → childrenOutline as = childrenOutline bs
  | [], [], _ => rfl
  | ⟨_, node₁⟩ :: rest₁, ⟨_, node₂⟩ :: rest₂, ⟨hnode, hrest⟩ => by
    rw [childrenOutline, childrenOutline, outline_eq_of_matches node₁ node₂ hnode,
      furtherOutlines_eq_of_matchesIn rest₁ rest₂ hrest]
termination_by structural as => as

theorem furtherOutlines_eq_of_matchesIn : (as bs : List (Located Node)) →
    MatchesIn SameHead as bs → furtherOutlines as = furtherOutlines bs
  | [], [], _ => rfl
  | ⟨_, node₁⟩ :: rest₁, ⟨_, node₂⟩ :: rest₂, ⟨hnode, hrest⟩ => by
    rw [furtherOutlines, furtherOutlines, outline_eq_of_matches node₁ node₂ hnode,
      furtherOutlines_eq_of_matchesIn rest₁ rest₂ hrest]
termination_by structural as => as
end

/-- **Two nodes have one outline exactly if they agree in kind and text and have as many
children, which agree in the same way one by one.**  A text that is absent does not agree
with an empty one, and docs and spans are not looked at. -/
theorem outline_eq_iff_matches (a b : Node) : a.outline = b.outline ↔ Matches SameHead a b := by
  refine ⟨fun h => ?_, outline_eq_of_matches a b⟩
  have hend : FollowsOutline [] := fun c hc => absurd hc (Option.not_mem_none c)
  exact (outline_append_inj a b hend hend (congrArg (String.toList · ++ []) h)).1

/-- A text that looks like the end of a text and a child. -/
example :
    outline ⟨.declaration, some "f' [Expr", none, []⟩ = "Decl \x22f' [Expr\x22" ∧
      outline ⟨.declaration, some "f", none, [⟨.unknown "", ⟨.expression, none, none, []⟩⟩]⟩ =
        "Decl 'f' [Expr]" := by
  decide

end SourceLayout.Node
