import VaultTokens.Failure
import VaultTokens.Lease
import VaultTokens.Settings.VaultSettings

/-!
# The registry of strategies

Strategies are registered under names, and a name leads to the strategy that was registered under it
last. The fallback strategy is there from the beginning: it serves one fixed token, which never
expires. Names that differ in case differ. The other strategies exchange with the server: the
services set up two at most, and callers may register any number of their own.

Main statements: `find?_register_self`, `find?_register_of_ne` and `find?_initial`.
-/

namespace VaultTokens

/-- The strategies that the services set up to exchange with the server. -/
inductive Provider where
  /-- The one that logs in with a service account. -/
  | kubernetes
  /-- The one that renews its token in place. -/
  | renewal
  deriving DecidableEq, Repr

/-- The name under which a provider is registered. -/
def Provider.method : Provider → String
  | .kubernetes => "kubernetes"
  | .renewal => "token-based"

/-- A strategy that exchanges with the server: one that the services have set up or one that a caller
has set up besides. -/
inductive Exchanger where
  /-- One of the services. -/
  | own (provider : Provider)
  /-- One of a caller. -/
  | guest (n : Nat)
  deriving DecidableEq, Repr

instance : Coe Provider Exchanger := ⟨.own⟩

@[inherit_doc Provider.kubernetes, match_pattern]
abbrev Exchanger.kubernetes : Exchanger := .own .kubernetes

@[inherit_doc Provider.renewal, match_pattern]
abbrev Exchanger.renewal : Exchanger := .own .renewal

/-- A strategy that a name may lead to. -/
inductive Strategy where
  /-- One that serves a fixed token. -/
  | fixed (token : String)
  /-- One that exchanges with the server. -/
  | provided (provider : Exchanger)
  deriving DecidableEq, Repr

/-- The token of a strategy with a fixed one, as it would be issued. -/
def Issued.fixed (token : String) : Issued := ⟨token, none⟩

/-- Names with the strategies that they lead to, the one registered last in front. -/
structure Registry where
  /-- The entries. -/
  entries : List (String × Strategy)
  deriving DecidableEq, Repr

namespace Registry

/-- A registry of the fallback strategy alone. -/
def initial (fallbackToken : String) : Registry := ⟨[(fallbackMethod, .fixed fallbackToken)]⟩

/-- The registry with a strategy under a name, in place of the one that was there. -/
def register (r : Registry) (name : String) (strategy : Strategy) : Registry :=
  ⟨(name, strategy) :: r.entries.filter fun e => e.1 ≠ name⟩

/-- The strategy that a name leads to. -/
def find? (r : Registry) (name : String) : Option Strategy :=
  (r.entries.find? fun e => e.1 = name).map Prod.snd

/-- The failure of a name that leads nowhere. -/
def unknown (name : String) : Failure := ⟨.unknownMethod, name⟩

/-- The strategy that a name leads to, or the failure that there is none. -/
def resolve (r : Registry) (name : String) : Except Failure Strategy :=
  match r.find? name with
  | some strategy => .ok strategy
  | none => .error (unknown name)

/-- Whether a name leads anywhere. -/
def has (r : Registry) (name : String) : Bool := (r.find? name).isSome

@[simp]
theorem find?_register_self (r : Registry) (name : String) (strategy : Strategy) :
    (r.register name strategy).find? name = some strategy := by
  simp [register, find?]

theorem find?_register_of_ne (r : Registry) {name other : String} (strategy : Strategy)
    (h : other ≠ name) : (r.register name strategy).find? other = r.find? other := by
  obtain ⟨entries⟩ := r
  have hne : ¬name = other := fun hEq => h hEq.symm
  simp only [register, find?, List.find?_cons, hne, decide_false, List.find?_filter]
  congr 2
  funext e
  by_cases he : e.1 = other
  · simp [he, h]
  · simp [he]

@[simp]
theorem find?_initial (token : String) :
    (initial token).find? fallbackMethod = some (.fixed token) := by
  simp [initial, find?]

/-- A name has a strategy exactly if it can be resolved. -/
theorem has_iff (r : Registry) (name : String) :
    r.has name = true ↔ ∃ strategy, r.resolve name = .ok strategy := by
  simp only [has, resolve]
  cases r.find? name <;> simp

end Registry

end VaultTokens
