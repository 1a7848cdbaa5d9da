/-
# Loopback addresses

A host is on this machine if it is `localhost`, an IPv4 address in 127.0.0.0/8
or the IPv6 address 1, which may carry a scope. The textual forms: four decimal
octets without leading zeros; or groups of up to four hexadecimal digits, where
one `::` may stand for a run of zero groups and an IPv4 address for the last
two groups.

Key definitions: `Loopback.ipv4?`, `Loopback.ipv6?`, `Loopback.isAddress`,
`Loopback.isHost`.
-/
import DiagnosticWatch.Json.Token

namespace DiagnosticWatch
namespace Loopback

/-- The fields between separators: one more than there are separators. -/
def fields (separator : Char) : List Char → List (List Char)
  | [] => [[]]
  | c :: cs =>
    if c = separator then [] :: fields separator cs
    else match fields separator cs with
      | field :: more => (c :: field) :: more
      | [] => [[c]]

/-- A decimal octet. -/
def octet? (cs : List Char) : Option Nat :=
  let value := Numeral.ofDigits cs
  if cs.all Char.isDigit ∧ 1 ≤ cs.length ∧ cs.length ≤ 3 ∧
      (cs.length = 1 ∨ cs.head? ≠ some '0') ∧ value ≤ 255 then some value
  else none

/-- The four octets of an IPv4 address. -/
def ipv4? (cs : List Char) : Option (List Nat) :=
  let parts := fields '.' cs
  if parts.length = 4 then parts.mapM octet? else none

/-- A group of an IPv6 address. -/
def group? (cs : List Char) : Option Nat := do
  let digits ← cs.mapM Token.hexDigit?
  if 1 ≤ digits.length ∧ digits.length ≤ 4 then some (digits.foldl (fun n d => 16 * n + d) 0)
  else none

/-- The groups between colons; none for no characters at all. -/
def groups? (cs : List Char) : Option (List Nat) :=
  if cs.isEmpty then some [] else (fields ':' cs).mapM group?

/-- The groups between colons, where an IPv4 address may stand for the last two. -/
def lastGroups? (cs : List Char) : Option (List Nat) :=
  let parts := fields ':' cs
  match parts.getLast?.bind ipv4? with
  | some [a, b, c, d] => do
    return (← parts.dropLast.mapM group?) ++ [256 * a + b, 256 * c + d]
  | _ => groups? cs

/-- The characters in front of the first `::`, and those after it. -/
def splitAtGap? : List Char → Option (List Char × List Char)
  | [] => none
  | ':' :: ':' :: cs => some ([], cs)
  | c :: cs => (splitAtGap? cs).map fun (before, after) => (c :: before, after)

/-- The eight groups of an IPv6 address without a scope. -/
def ipv6? (cs : List Char) : Option (List Nat) :=
  match splitAtGap? cs with
  | some (before, after) => do
    let high ← groups? before
    let low ← lastGroups? after
    if high.length + low.length < 8 then
      return high ++ List.replicate (8 - high.length - low.length) 0 ++ low
    else none
  | none =>
    match lastGroups? cs with
    | some groups => if groups.length = 8 then some groups else none
    | none => none

/-- An address without its scope; none if the scope is not well-formed. -/
def unscoped? (cs : List Char) : Option (List Char) :=
  let (address, tail) := cs.span (· ≠ '%')
  match tail with
  | [] => some address
  | _ :: scope => if scope.isEmpty ∨ scope.contains '%' ∨ scope.contains '/' then none
    else some address

/-- Whether the characters are a loopback address. -/
def isAddress (cs : List Char) : Bool :=
  match ipv4? cs with
  | some octets => octets.head? = some 127
  | none => (unscoped? cs).bind ipv6? = some [0, 0, 0, 0, 0, 0, 0, 1]

/-- A host without the brackets around it. -/
def bare (host : List Char) : List Char :=
  let bracket := fun c => c = '[' ∨ c = ']'
  ((host.dropWhile bracket).reverse.dropWhile bracket).reverse

/-- Whether a host is on this machine, brackets around it aside. -/
def isHost (host : String) : Bool :=
  let host := bare host.toList
  host = "localhost".toList || isAddress host

end Loopback
end DiagnosticWatch
