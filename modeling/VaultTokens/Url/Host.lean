import VaultTokens.Url.Percent
import VaultTokens.Url.Host.Ipv4
import VaultTokens.Url.Host.Ipv6
import VaultTokens.Url.Host.Label

/-!
# Hosts

The host of a URL is a name of ASCII characters in lower case, an IPv4 address or an IPv6 address.
A name may be percent-encoded where it is written. What it decodes to may be of any script, and is
kept as the labels that stand for it; they must not hold a character with a meaning in URLs.

Main statement: `written_of_nameOf?` (an accepted name holds characters that names may hold, and is
in lower case).
-/

namespace VaultTokens.Url

/-- The host of a URL. -/
inductive Host where
  /-- A name. -/
  | name (text : String)
  /-- An address of four bytes. -/
  | ipv4 (address : Nat)
  /-- An address of eight groups of sixteen bits. -/
  | ipv6 (groups : List Nat)
  deriving DecidableEq

namespace Host

/-- Whether a name may hold a character. -/
def isNameChar (c : Char) : Bool :=
  0x20 < c.toNat && c.toNat < 0x7f &&
    !(['#', '/', ':', '<', '>', '?', '@', '[', '\\', ']', '^', '|', '%'].contains c)

/-- The name that decoded bytes spell, in lower case and with ASCII only. -/
def nameOf? (bytes : List UInt8) : Option (List Char) :=
  (Text.Utf8.decodeStrict bytes).bind fun spelled =>
    (inAscii? spelled).bind fun written =>
      let name := written.map Char.toLower
      if written.all isNameChar && !written.isEmpty && isLegible name then some name else none

/-- The host that a text denotes. -/
def ofChars? (text : List Char) : Option Host :=
  match text with
  | [] => none
  | '[' :: rest =>
    if rest.getLast? = some ']' then (Ipv6.parse? rest.dropLast).map .ipv6 else none
  | _ =>
    (nameOf? (Percent.decode text)).bind fun name =>
      if Ipv4.endsInNumber name then (Ipv4.parse? name).map .ipv4
      else some (.name (String.ofList name))

/-- The text of a host. -/
def render : Host → String
  | .name text => text
  | .ipv4 address => Ipv4.render address
  | .ipv6 groups => "[" ++ Ipv6.render groups ++ "]"

/-- An accepted name is written with characters that names may hold, and its labels can stand beside
each other. -/
theorem written_of_nameOf? {bytes : List UInt8} {name : List Char}
    (h : nameOf? bytes = some name) :
    ∃ written : List Char, (∀ c ∈ written, isNameChar c = true) ∧ written ≠ [] ∧
      name = written.map Char.toLower ∧ isLegible name = true := by
  obtain ⟨spelled, -, hspelled⟩ := Option.bind_eq_some_iff.mp h
  obtain ⟨written, -, hwritten⟩ := Option.bind_eq_some_iff.mp hspelled
  obtain ⟨hname, hlower⟩ := Option.ite_none_right_eq_some.mp hwritten
  obtain rfl := Option.some.inj hlower
  simp only [Bool.and_eq_true, List.all_eq_true, Bool.not_eq_true', List.isEmpty_eq_false_iff]
    at hname
  obtain ⟨⟨hchars, hnonempty⟩, hlegible⟩ := hname
  exact ⟨written, hchars, hnonempty, rfl, hlegible⟩

example : nameOf? (Text.Utf8.encode "BÜCHER.example".toList) = some "xn--bcher-kva.example".toList := by
  decide +kernel

end Host

end VaultTokens.Url
