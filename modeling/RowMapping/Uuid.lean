import RowMapping.Number.Digits
import RowMapping.Text.Quoted

/-! Universally unique identifiers: 128 bits, written in hyphenated groups. -/
namespace RowMapping

structure Uuid where
  value : Nat
  deriving DecidableEq, Repr, Inhabited

inductive UuidFault where
  | character (c : Char) (index : Nat)
  | length (found : Nat)
  | byteLength (found : Nat)
  | groupCount (found : Nat)
  | groupLength (group expected found : Nat)

namespace UuidFault

def message : UuidFault → String
  | .character c index =>
    let tick := Char.ofNat 96
    "invalid character: found " ++ String.ofList [tick, c, tick] ++ " at " ++ toString index
  | .length n => "invalid length: found " ++ toString n
  | .byteLength n => "invalid length: expected 16 bytes, found " ++ toString n
  | .groupCount n => "invalid group count: expected 5, found " ++ toString n
  | .groupLength g e n =>
    "invalid group length in group " ++ toString g ++ ": expected " ++ toString e ++ ", found "
      ++ toString n

end UuidFault

namespace Uuid

def hexDigit? (c : Char) : Option Nat :=
  if '0' ≤ c ∧ c ≤ '9' then some (c.toNat - 48)
  else if 'a' ≤ c ∧ c ≤ 'f' then some (c.toNat - 87)
  else if 'A' ≤ c ∧ c ≤ 'F' then some (c.toNat - 55)
  else none

private def ofHex (cs : List Char) : Nat := cs.foldl (fun n c => 16 * n + (hexDigit? c).getD 0) 0

private def ofBigEndian (bytes : List UInt8) : Nat := bytes.foldl (fun n b => 256 * n + b.toNat) 0

private def splitGroups (cs : List Char) : List (List Char) := cs.splitOn '-'

/-- The digits of the groups, without the braces or the scheme that may enclose them. -/
private def peel (cs : List Char) : List Char × Nat × Bool :=
  let scheme := "urn:uuid:".toList
  if cs.head? = some '{' && cs.getLast? = some '}' then (cs.tail.dropLast, 1, false)
  else if cs.take scheme.length = scheme then (cs.drop scheme.length, scheme.length, false)
  else (cs, 0, true)

private def groupSizes : List Nat := [8, 4, 4, 4, 12]

private def firstBad (cs : List Char) : Option (Char × Nat) :=
  (cs.zipIdx.find? fun p => p.1 != '-' && (hexDigit? p.1).isNone)

/-- Reads hyphenated groups, plain digits, a braced form or the scheme's form. -/
def ofText (s : String) : Except UuidFault Uuid :=
  let all := s.toList
  let (cs, start, simple) := peel all
  match firstBad cs with
  | some (c, i) => .error (.character c (i + start))
  | none =>
    let groups := splitGroups cs
    if groups.length = 1 then
      if cs.length = 32 then .ok ⟨ofHex cs⟩
      else if simple then .error (.length all.length)
      else .error (.groupCount 1)
    else if groups.length != 5 then .error (.groupCount groups.length)
    else
      match (groups.zip groupSizes).zipIdx.find? (fun p => p.1.1.length != p.1.2) with
      | some ((g, size), i) => .error (.groupLength i size g.length)
      | none => .ok ⟨ofHex groups.flatten⟩

/-- Reads bytes: those of a written form, or sixteen of the value itself. -/
def ofBytes (bytes : List UInt8) : Except UuidFault Uuid :=
  let written := (Text.ofUtf8? bytes).bind fun s => (ofText s).toOption
  match written with
  | some u => .ok u
  | none =>
    if bytes.length = 16 then .ok ⟨ofBigEndian bytes⟩ else .error (.byteLength bytes.length)

def render (u : Uuid) : String :=
  let cs := Text.hex 32 u.value
  String.ofList (cs.take 8 ++ '-' :: (cs.drop 8).take 4 ++ '-' :: (cs.drop 12).take 4
    ++ '-' :: (cs.drop 16).take 4 ++ '-' :: cs.drop 20)

end Uuid
end RowMapping
