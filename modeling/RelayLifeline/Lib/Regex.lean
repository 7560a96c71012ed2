import Mathlib.Data.List.Basic

/-!
# Regular expressions that prefer the first alternative

A pattern goes over a text of bytes. From a place in the text it has the places
where what it matches may end, the preferred one first: an alternative before
the ones after it, and one more round of a repetition before none. Replacing
goes from left to right and takes the preferred match at each place that has
one.
-/

namespace RelayLifeline.Lib

inductive Regex where
  /-- One byte of the class. -/
  | byte (holds : UInt8 → Bool)
  | seq (first second : Regex)
  | alt (left right : Regex)
  /-- As often as it goes. -/
  | star (body : Regex)
  /-- Where a word begins or ends. -/
  | boundary

/-- A place in a text: the byte before it and what follows it. -/
structure Place where
  before : Option UInt8
  rest : List UInt8

def isWord (b : UInt8) : Bool :=
  (0x30 ≤ b && b ≤ 0x39) || (0x41 ≤ b && b ≤ 0x5a) || b = 0x5f || (0x61 ≤ b && b ≤ 0x7a)

namespace Regex

/-- The ends of so many rounds at most, of more rounds first. -/
def rounds (body : Place → List Place) : Nat → Place → List Place
  | 0, place => [place]
  | n + 1, place => (body place).flatMap (rounds body n) ++ [place]

/-- Where a match that begins at the place may end. A round of a repetition
that took no byte would be taken for nothing, so there are no more rounds than
bytes. -/
def ends : Regex → Place → List Place
  | .byte holds, place =>
      match place.rest with
      | [] => []
      | b :: rest => if holds b then [⟨some b, rest⟩] else []
  | .seq first second, place => (first.ends place).flatMap second.ends
  | .alt left right, place => left.ends place ++ right.ends place
  | .star body, place => rounds body.ends place.rest.length place
  | .boundary, place =>
      if place.before.any isWord = place.rest.head?.any isWord then [] else [place]

/-- The bytes, one after the other. -/
def literal : List UInt8 → Regex
  | [] => .star (.byte fun _ => false)
  | [b] => .byte (· = b)
  | b :: rest => .seq (.byte (· = b)) (literal rest)

def opt (body : Regex) : Regex := .alt body (literal [])

/-- At least so many rounds. -/
def atLeast (body : Regex) : Nat → Regex
  | 0 => .star body
  | n + 1 => .seq body (atLeast body n)

/-- Exactly so many rounds. -/
def times (body : Regex) : Nat → Regex
  | 0 => literal []
  | n + 1 => .seq body (times body n)

def plus (body : Regex) : Regex := atLeast body 1

def concat : List Regex → Regex
  | [] => literal []
  | [pattern] => pattern
  | pattern :: rest => .seq pattern (concat rest)

def choice : List Regex → Regex
  | [] => .byte fun _ => false
  | [pattern] => pattern
  | pattern :: rest => .alt pattern (choice rest)

/-- What follows the place, with every match replaced. The fuel is the length
of the text: every match takes a byte. -/
def replaceFrom (pattern : Regex) (replacement : List UInt8) : Nat → Place → List UInt8
  | 0, place => place.rest
  | n + 1, place =>
      match place.rest with
      | [] => []
      | b :: rest =>
          match (pattern.ends place).head? with
          | some last => replacement ++ pattern.replaceFrom replacement n last
          | none => b :: pattern.replaceFrom replacement n ⟨some b, rest⟩

/-- `ReplaceAll`, of a pattern that matches nothing empty. -/
def replaceAll (pattern : Regex) (replacement text : List UInt8) : List UInt8 :=
  pattern.replaceFrom replacement text.length ⟨none, text⟩

/-- Somewhere in the text there is a match. -/
def Occurs (pattern : Regex) (text : List UInt8) : Prop :=
  ∃ before after, text = before ++ after ∧ pattern.ends ⟨before.getLast?, after⟩ ≠ []

theorem replaceFrom_of_absent {pattern : Regex} {text : List UInt8} (h : ¬ pattern.Occurs text)
    (replacement : List UInt8) (n : Nat) (before after : List UInt8) (htext : text = before ++ after) :
    pattern.replaceFrom replacement n ⟨before.getLast?, after⟩ = after := by
  induction n generalizing before after with
  | zero => rfl
  | succ n ih =>
      cases after with
      | nil => rfl
      | cons b after =>
          have hnone : pattern.ends ⟨before.getLast?, b :: after⟩ = [] := by
            by_contra hne
            exact h ⟨before, b :: after, htext, hne⟩
          have hnext := ih (before ++ [b]) after (by rw [htext, List.append_assoc]; rfl)
          rw [List.getLast?_concat] at hnext
          rw [replaceFrom, hnone]
          show b :: pattern.replaceFrom replacement n ⟨some b, after⟩ = b :: after
          rw [hnext]

/-- A text in which the pattern does not occur stays as it is. -/
theorem replaceAll_of_absent {pattern : Regex} {text : List UInt8} (h : ¬ pattern.Occurs text)
    (replacement : List UInt8) : pattern.replaceAll replacement text = text :=
  replaceFrom_of_absent h replacement text.length [] text rfl

end Regex

end RelayLifeline.Lib
