import ClarityDelta.Data.Yaml.Document
import ClarityDelta.Proofs.Outcome

/-!
# Where a YAML text is refused

A text that follows the notation is refused only for an escape that names no character, or for a scalar
in its tree that has no value of its tag: `refused_of_document`. Merging pairs brings no new scalars into
a mapping and refuses none.
-/

namespace ClarityDelta.Data.Yaml

variable {tag : Tag} {text : String}
  {node : Node} {pairs all : List (Node × Node)} {pair : Node × Node} {cause : ScalarFault}
  {fault : Fault} {fuel : Nat}

/-! ## Scalars in a tree -/

/-- A scalar stands in a node. -/
inductive Stands (tag : Tag) (text : String) : Node → Prop
  | here : Stands tag text (.scalar tag text)
  | item {outer items node} : node ∈ items → Stands tag text node →
      Stands tag text (.sequence outer items)
  | key {outer pairs pair} : pair ∈ pairs → Stands tag text pair.1 →
      Stands tag text (.mapping outer pairs)
  | entry {outer pairs pair} : pair ∈ pairs → Stands tag text pair.2 →
      Stands tag text (.mapping outer pairs)

/-- A scalar in a node has no value of its tag. -/
def Refused (cause : ScalarFault) (node : Node) : Prop :=
  ∃ tag text, Stands tag text node ∧ scalarValue tag text = .error (.scalar cause)

/-! ## Merged pairs -/

/-- Whether the key of a pair is a merge key. -/
def isMerge (pair : Node × Node) : Bool :=
  match pair.1 with
  | .scalar .merge _ => true
  | _ => false

/-- The pairs that are taken over from a mapping. -/
def innerPairs (fuel : Nat) (node : Node) : Except Fault (List (Node × Node)) :=
  match node with
  | .mapping _ inner => mergedPairs fuel inner
  | _ => .error .illFormed

/-- The pairs that are taken over from the value of a merge key. -/
def takenPairs (fuel : Nat) (node : Node) : Except Fault (List (Node × Node)) :=
  match node with
  | .mapping _ inner => mergedPairs fuel inner
  | .sequence _ items => do
    let parts ← items.mapM (innerPairs fuel)
    return parts.reverse.flatten
  | _ => .error .illFormed

/-- The pairs that are merged in stand before those of the mapping itself. -/
theorem mergedPairs_succ (fuel : Nat) (pairs : List (Node × Node)) :
    mergedPairs (fuel + 1) pairs = do
      let taken ← (pairs.filter isMerge).mapM fun pair => takenPairs fuel pair.2
      return taken.flatten ++ pairs.filter (!isMerge ·) := rfl

/-- Merging pairs fails with nothing but an ill-formed text. -/
theorem illFormed_of_mergedPairs (h : mergedPairs fuel pairs = .error fault) : fault = .illFormed := by
  induction fuel generalizing pairs with
  | zero => exact (Except.error.inj h).symm
  | succ fuel ih =>
    have hinner : ∀ node, innerPairs fuel node = .error fault → fault = .illFormed := by
      intro node hnode
      unfold innerPairs at hnode
      split at hnode
      · exact ih hnode
      · exact (Except.error.inj hnode).symm
    rw [mergedPairs_succ] at h
    obtain htaken | ⟨_, -, h⟩ := bind_eq_error h
    · obtain ⟨pair, -, hpair⟩ := exists_of_mapM_error htaken
      unfold takenPairs at hpair
      split at hpair
      · exact ih hpair
      · obtain hitems | ⟨_, -, h⟩ := bind_eq_error hpair
        · obtain ⟨item, -, hitem⟩ := exists_of_mapM_error hitems
          exact hinner item hitem
        · cases h
      · exact (Except.error.inj hpair).symm
    · cases h

/-- A scalar stands in one of the nodes of a pair. -/
def StandsInPair (tag : Tag) (text : String) (pair : Node × Node) : Prop :=
  Stands tag text pair.1 ∨ Stands tag text pair.2

/-- What stands in a pair stands in its mapping. -/
theorem StandsInPair.mapping (h : StandsInPair tag text pair) (hpair : pair ∈ pairs) (outer : Tag) :
    Stands tag text (.mapping outer pairs) :=
  h.elim (.key hpair) (.entry hpair)

/-- Merged pairs hold no scalars but those of the mapping. -/
theorem stands_of_mergedPairs (h : mergedPairs fuel pairs = .ok all) (hpair : pair ∈ all)
    (hstands : StandsInPair tag text pair) (outer : Tag) : Stands tag text (.mapping outer pairs) := by
  induction fuel generalizing pairs all outer with
  | zero => cases h
  | succ fuel ih =>
    have hinner : ∀ node part, innerPairs fuel node = .ok part → pair ∈ part →
        Stands tag text node := by
      intro node part hnode hpart
      unfold innerPairs at hnode
      split at hnode
      · exact ih hnode hpart _
      · cases hnode
    rw [mergedPairs_succ] at h
    obtain ⟨taken, htaken, h⟩ := bind_eq_ok h
    obtain rfl : taken.flatten ++ pairs.filter (!isMerge ·) = all := Except.ok.inj h
    rcases List.mem_append.mp hpair with hmem | hmem
    · -- the pair is taken over from the value of a merge key
      obtain ⟨part, hpart, hmem⟩ := List.mem_flatten.mp hmem
      obtain ⟨merge, hmerge, htakes⟩ := exists_of_mapM_ok htaken hpart
      refine .entry (List.mem_filter.mp hmerge).1 ?_
      unfold takenPairs at htakes
      split at htakes
      · next inner heq =>
        rw [heq]
        exact ih htakes hmem _
      · next items heq =>
        rw [heq]
        obtain ⟨parts, hitems, h⟩ := bind_eq_ok htakes
        obtain rfl : parts.reverse.flatten = part := Except.ok.inj h
        obtain ⟨inner, hparts, hmem⟩ := List.mem_flatten.mp hmem
        obtain ⟨item, hitem, heq⟩ := exists_of_mapM_ok hitems (List.mem_reverse.mp hparts)
        exact .item hitem (hinner item inner heq hmem)
      · cases htakes
    · exact hstands.mapping (List.mem_filter.mp hmem).1 outer

/-! ## Values -/

/-- A tree is refused only for a scalar in it. -/
theorem refused_of_value (fuel : Nat) :
    (∀ node cause, value fuel node = .error (.scalar cause) → Refused cause node) ∧
      ∀ outer pairs cause, keyedValues fuel pairs = .error (.scalar cause) →
        Refused cause (.mapping outer pairs) := by
  -- for trees and for pairs at once, since each is read with the fuel that the other leaves
  induction fuel with
  | zero => exact ⟨fun _ _ h => (by cases h), fun _ _ _ h => (by cases h)⟩
  | succ fuel ih =>
    obtain ⟨ihValue, ihPairs⟩ := ih
    constructor
    · intro node cause h
      cases node with
      | scalar tag text => exact ⟨tag, text, .here, h⟩
      | cycle => cases h
      | sequence tag items =>
        rw [value] at h
        obtain hitems | ⟨_, -, h⟩ := bind_eq_error h
        · obtain ⟨item, hitem, heq⟩ := exists_of_mapM_error hitems
          obtain ⟨scalar, text, hstands, hvalue⟩ := ihValue item cause heq
          exact ⟨scalar, text, .item hitem hstands, hvalue⟩
        · cases tag <;> cases h
      | mapping tag pairs =>
        rw [value] at h
        obtain hpairs | ⟨_, -, h⟩ := bind_eq_error h
        · exact ihPairs tag pairs cause hpairs
        · cases tag <;> cases h
    · intro outer pairs cause h
      rw [keyedValues] at h
      obtain hmerged | ⟨all, hall, h⟩ := bind_eq_error h
      · cases illFormed_of_mergedPairs hmerged
      obtain ⟨⟨keyNode, valueNode⟩, hpair, heq⟩ := exists_of_mapM_error h
      have hentry : ∀ key : Key, (do return (key, ← value fuel valueNode)) =
          (.error (.scalar cause) : Except Fault (Key × Value)) →
            Refused cause (.mapping outer pairs) := by
        intro key hvalue
        obtain hvalue | ⟨_, -, h⟩ := bind_eq_error hvalue
        · obtain ⟨tag, text, hstands, hrefused⟩ := ihValue valueNode cause hvalue
          exact ⟨tag, text, stands_of_mergedPairs hall hpair (Or.inr hstands) outer, hrefused⟩
        · cases h
      dsimp only at heq
      split at heq
      · exact hentry _ heq
      · next tag text _ =>
        obtain hkey | ⟨key, -, heq⟩ := bind_eq_error heq
        · exact ⟨tag, text, stands_of_mergedPairs hall hpair (Or.inl .here) outer, hkey⟩
        · cases key with
          | _ => exact hentry _ heq
      · cases heq

/-- The text has an escape that names no character, or a scalar without a value of its tag. -/
def RefusedText (cause : ScalarFault) (s : String) : Prop :=
  (node? s.toList = .error .noCharacter ∧ cause = .noCharacter) ∨
    ∃ node, node? s.toList = .ok (some node) ∧ Refused cause node

/-- A text that follows the notation is refused only for something in it that has no value. -/
theorem refused_of_document {s : String} (h : document s = .error (.scalar cause)) :
    RefusedText cause s := by
  rw [document] at h
  cases hnode : node? s.toList with
  | error malformed =>
    rw [hnode] at h
    cases malformed with
    | illFormed => cases h
    | noCharacter => exact Or.inl ⟨hnode, (Fault.scalar.inj (Except.error.inj h)).symm⟩
  | ok node? =>
    rw [hnode] at h
    obtain ⟨hvalue, hpairs⟩ := refused_of_value (s.toList.length + 8)
    have hother : ∀ node, (do return Document.other (← value (s.toList.length + 8) node)) =
        (.error (.scalar cause) : Except Fault Document) → Refused cause node := by
      intro node heq
      obtain heq | ⟨_, -, h⟩ := bind_eq_error heq
      · exact hvalue node cause heq
      · cases h
    have hmapping : ∀ pairs,
        (do return Document.mapping (← keyedValues (s.toList.length + 8) pairs)) =
          (.error (.scalar cause) : Except Fault Document) →
            Refused cause (.mapping .mapping pairs) := by
      intro pairs heq
      obtain heq | ⟨_, -, h⟩ := bind_eq_error heq
      · exact hpairs .mapping pairs cause heq
      · cases h
    cases node? with
    | none => cases h
    | some node =>
      refine Or.inr ⟨node, hnode, ?_⟩
      cases node with
      | mapping tag pairs =>
        cases tag with
        | mapping => exact hmapping pairs h
        | _ => exact hother _ h
      | _ => exact hother _ h

end ClarityDelta.Data.Yaml
