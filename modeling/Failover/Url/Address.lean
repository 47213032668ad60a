import Failover.Number.Decimal
import Failover.Text.Hex

/-
  IP addresses of 128 bits: eight groups of 16 bits, of which
  one run of zeros may be left out.

  Key definitions include:
    * `Address`
    * `Address.dotted?`
    * `Address.groups?`
    * `Address.ofChars?`
    * `Address.write`
-/

namespace Failover

/- The eight groups of an address. -/
abbrev Address := List Nat

namespace Address

------------------------------------------------------------
-- Reading
------------------------------------------------------------

/- The number of hexadecimal digits. -/
def hexValue (cs : List Char) : Nat :=
  cs.foldl (fun n c => n * 16 + (Hex.value? c).getD 0) 0

/- A number below 256 without leading zeros. -/
def octet? (cs : List Char) : Option Nat :=
  match cs with
  | [] => none
  | '0' :: _ :: _ => none
  | _ =>
      if cs.length ≤ 3 ∧ Decimal.ofDigits cs ≤ 255 then
        some (Decimal.ofDigits cs)
      else none

/- Four numbers with dots between, as two groups. -/
def dotted? (cs : List Char) : Option (List Nat) := do
  let digits := cs.takeWhile Text.isDigit
  let (a, r) := (digits, cs.dropWhile Text.isDigit)
  let dot? : List Char → Option (List Char)
    | '.' :: r => some r
    | _ => none
  let r ← dot? r
  let (b, r) :=
    (r.takeWhile Text.isDigit, r.dropWhile Text.isDigit)
  let r ← dot? r
  let (c, r) :=
    (r.takeWhile Text.isDigit, r.dropWhile Text.isDigit)
  let d ← dot? r
  if !d.all Text.isDigit then none
  let a ← octet? a
  let b ← octet? b
  let c ← octet? c
  let d ← octet? d
  return [a * 256 + b, c * 256 + d]

/-
  The groups of a text and the place of the run left out;
  `done` holds the groups so far.  The first argument bounds
  the groups read.
-/
def groups? :
    Nat → List Nat → Option Nat → List Char →
      Option (List Nat × Option Nat)
  | 0, _, _, _ => none
  | _ + 1, done, gap, [] => some (done, gap)
  | fuel + 1, done, gap, c :: r =>
      if done.length = 8 then none
      else if c = ':' then
        if gap.isSome then none
        else
          let done := done ++ [0]
          groups? fuel done (some done.length) r
      else
        let cs := c :: r
        let digits :=
          (cs.take 4).takeWhile fun d => (Hex.value? d).isSome
        let value := hexValue digits
        match cs.drop digits.length with
        | [] => some (done ++ [value], gap)
        | '.' :: _ =>
            if digits.isEmpty || 6 < done.length then none
            else (dotted? cs).map fun p => (done ++ p, gap)
        | [':'] => none
        | ':' :: s => groups? fuel (done ++ [value]) gap s
        | _ => none

/- The run of zeros is put where it was left out. -/
def fill :
    List Nat × Option Nat → Option Address
  | (gs, none) => if gs.length = 8 then some gs else none
  | (gs, some k) =>
      if 8 < gs.length then none
      else
        some (gs.take k ++ List.replicate (8 - gs.length) 0 ++
          gs.drop k)

/- The address of a text. -/
def ofChars? (cs : List Char) : Option Address :=
  match cs with
  | ':' :: ':' :: r =>
      (groups? (r.length + 1) [0] (some 1) r).bind fill
  | ':' :: _ => none
  | _ :: _ :: _ =>
      (groups? (cs.length + 1) [] none cs).bind fill
  | _ => none

------------------------------------------------------------
-- Writing
------------------------------------------------------------

/- The length of the run of zeros in front. -/
def zeros (gs : List Nat) : Nat :=
  (gs.takeWhile (· == 0)).length

/- The place and length of the first longest run of zeros. -/
def longestRun (gs : Address) : Nat × Nat :=
  (List.range gs.length).foldl
    (fun best i =>
      let n := zeros (gs.drop i)
      if best.2 < n then (i, n) else best)
    (0, 0)

/- Groups with colons between. -/
def writeGroups (gs : List Nat) : List Char :=
  [':'].intercalate (gs.map (Nat.toDigits 16))

/- A run of at least two zeros is left out. -/
def write (gs : Address) : List Char :=
  let (i, n) := longestRun gs
  if n < 2 then writeGroups gs
  else
    writeGroups (gs.take i) ++ ':' :: ':' ::
      writeGroups (gs.drop (i + n))

example :
    (ofChars? "1::2.3.4.5".toList).map write =
      some "1::203:405".toList := by
  decide +kernel

end Address

end Failover
