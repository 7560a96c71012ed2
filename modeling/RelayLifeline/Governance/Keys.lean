import RelayLifeline.Bytes
import RelayLifeline.Runes
import RelayLifeline.Text
import Mathlib.Data.List.Nodup

/-!
# Budget keys

A budget is charged under a key, the name of a scope and a value joined by a
NUL. A value may hold any rune, NUL included, but a scope does not, so the
first NUL always separates the two and a key the manager made reads back as
the pair it was made from. The ledger of an older version joined them with a
colon or wrote a bare principal; replay normalises those, and leaves a key of
today as it is.
-/

namespace RelayLifeline.Governance

open Bytes (runes)
open Lib.Json (Text)

/-- The scopes a configured budget may have. -/
inductive Scope where
  | principal
  | tenant
  | model
  | upstream
  deriving DecidableEq, Repr

def Scope.text : Scope → String
  | .principal => "principal"
  | .tenant => "tenant"
  | .model => "model"
  | .upstream => "upstream"

def canonicalBudgetKey (scope value : String) : String := trimSpace scope ++ "\x00" ++ value

def parseBudgetKey (key : String) : String × String :=
  match splitFirst '\x00' key with
  | some parts => parts
  | none =>
      match splitFirst ':' key with
      | some parts => parts
      | none => (key, "")

def normalizeBudgetKey (key : String) : String :=
  let parsed := parseBudgetKey key
  if parsed.2 = "" then canonicalBudgetKey "principal" parsed.1
  else canonicalBudgetKey parsed.1 parsed.2

/-- Normalise, and keep the first of each key. -/
def normalizeBudgetKeys (keys : List String) (principal : String) : List String :=
  if keys = [] then [canonicalBudgetKey "principal" principal]
  else keys.foldl (fun result key =>
    let key := normalizeBudgetKey key
    if key ∈ result then result else result ++ [key]) []

def budgetKeyScope (key : String) : String := (parseBudgetKey key).1

def displayBudgetKey (key : String) : String :=
  let parsed := parseBudgetKey key
  if parsed.2 = "" then parsed.1 else parsed.1 ++ ":" ++ parsed.2

/-! ## Patterns

A value comes off the wire, so a pattern and a value are compared as they are,
as bytes; the matcher reads both as runes. -/

/-- The row of the matcher after one more token of the pattern: entry `j`
says whether the tokens so far match the first `j` runes of the value. -/
def globRow (value : List Nat) (row : List Bool) (token : Nat) : List Bool :=
  (List.range (value.length + 1)).map fun j =>
    if token = 0x2a then (row.take (j + 1)).any id
    else if j = 0 then false
    else if token = 0x3f then row.getD (j - 1) false
    else row.getD (j - 1) false && value.getD (j - 1) 0 = token

def globMatch (pattern value : Text) : Bool :=
  let v := runes value
  let start := true :: List.replicate v.length false
  ((runes pattern).foldl (globRow v) start).getD v.length false

/-- `strings.ContainsAny(pattern, "*?")`. -/
def hasWildcard (pattern : Text) : Bool := pattern.any fun c => c = 0x2a || c = 0x3f

def budgetMatches (pattern value : Text) : Bool :=
  let pattern := Bytes.trimSpace pattern
  if pattern = value then true
  else if pattern = [] ∨ value = [] then false
  else if hasWildcard pattern then globMatch pattern value
  else false

/-! ## Keys of today -/

@[simp] theorem trimSpace_scope (scope : Scope) : trimSpace scope.text = scope.text := by
  cases scope <;> decide

theorem nul_notMem_scope (scope : Scope) : '\x00' ∉ scope.text.toList := by
  cases scope <;> decide

/-- The key a budget of this scope is charged under. -/
def Scope.key (scope : Scope) (value : String) : String := canonicalBudgetKey scope.text value

@[simp] theorem parseBudgetKey_key (scope : Scope) (value : String) :
    parseBudgetKey (scope.key value) = (scope.text, value) := by
  have : scope.key value = scope.text ++ (String.singleton '\x00' ++ value) := by
    unfold Scope.key canonicalBudgetKey
    rw [trimSpace_scope, String.append_assoc]
    rfl
  unfold parseBudgetKey
  rw [this, splitFirst_append (nul_notMem_scope scope)]

theorem Scope.text_injective : Function.Injective Scope.text := by
  intro a b h
  cases a <;> cases b <;> first | rfl | exact absurd h (by decide)

theorem Scope.key_inj {s t : Scope} {v w : String} : s.key v = t.key w ↔ s = t ∧ v = w := by
  constructor
  · intro h
    have := congrArg parseBudgetKey h
    simp only [parseBudgetKey_key, Prod.mk.injEq] at this
    exact ⟨text_injective this.1, this.2⟩
  · rintro ⟨rfl, rfl⟩
    rfl

theorem normalizeBudgetKey_key (scope : Scope) {value : String} (h : value ≠ "") :
    normalizeBudgetKey (scope.key value) = scope.key value := by
  unfold normalizeBudgetKey
  rw [parseBudgetKey_key]
  exact if_neg h

/-- A key of a known scope. -/
def Canonical (key : String) : Prop := ∃ (scope : Scope) (value : String), key = scope.key value

/-- A list of keys as `budgetKeysLocked` makes them: one key at least, each
canonical and with a value, none twice. -/
structure CanonicalKeys (keys : List String) : Prop where
  nonempty : keys ≠ []
  canonical : ∀ key ∈ keys, Canonical key
  valued : ∀ key ∈ keys, (parseBudgetKey key).2 ≠ ""
  nodup : keys.Nodup

theorem CanonicalKeys.normalize {keys : List String} (h : CanonicalKeys keys) {key : String}
    (hk : key ∈ keys) : normalizeBudgetKey key = key := by
  obtain ⟨scope, value, rfl⟩ := h.canonical key hk
  have hv := h.valued _ hk
  rw [parseBudgetKey_key] at hv
  exact normalizeBudgetKey_key scope hv

theorem normalizeBudgetKeys_of_canonical {keys : List String} (h : CanonicalKeys keys)
    (principal : String) : normalizeBudgetKeys keys principal = keys := by
  have hfold : ∀ (rest done : List String), (done ++ rest).Nodup →
      (∀ key ∈ rest, normalizeBudgetKey key = key) →
      rest.foldl (fun result key =>
        let key := normalizeBudgetKey key
        if key ∈ result then result else result ++ [key]) done = done ++ rest := by
    intro rest
    induction rest with
    | nil => intro done _ _; simp
    | cons key rest ih =>
        intro done hnd hnorm
        have hnot : key ∉ done := fun hin =>
          (List.nodup_append.1 hnd).2.2 key hin key (by simp) rfl
        simp only [List.foldl_cons, hnorm key (by simp), if_neg hnot]
        rw [ih (done ++ [key]) (by simpa using hnd)
          (fun k hk => hnorm k (List.mem_cons_of_mem _ hk))]
        simp
  unfold normalizeBudgetKeys
  rw [if_neg h.nonempty]
  exact hfold keys [] (by simpa using h.nodup) fun _ => h.normalize

end RelayLifeline.Governance
