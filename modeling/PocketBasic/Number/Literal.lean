import PocketBasic.Number.Binary64
import PocketBasic.Number.Integer

/-! # Reading reals

A real is written as an optional sign followed by `inf`, `infinity` or `nan` in any case, or by
digits with at most one point among them and an optional exponent. At least one digit stands
before the exponent and at least one in it.
-/

namespace PocketBasic.Number

/-- The longest run of digits at the front and what follows it. -/
def spanDigits (s : List Char) : List Char × List Char :=
  s.span fun c => (digitValue? c).isSome

/-- Reads `e` or `E`, an optional sign and digits to the end. -/
def exponent? : List Char → Option Int
  | c :: rest =>
      if c = 'e' || c = 'E' then
        let (negative, body) :=
          match rest with
          | '-' :: more => (true, more)
          | '+' :: more => (false, more)
          | more => (false, more)
        if !body.isEmpty && body.all (fun d => (digitValue? d).isSome) then
          some (if negative then -(ofDigits body : Int) else (ofDigits body : Int))
        else none
      else none
  | [] => none

/-- Reads an unsigned decimal as `m * 10 ^ e`. -/
def decimal? (s : List Char) : Option (Nat × Int) :=
  let (whole, rest) := spanDigits s
  let (fraction, rest) :=
    match rest with
    | '.' :: more => spanDigits more
    | more => ([], more)
  if whole.isEmpty && fraction.isEmpty then none
  else
    let shift : Int := -(fraction.length : Int)
    match rest with
    | [] => some (ofDigits (whole ++ fraction), shift)
    | _ => (exponent? rest).map fun e => (ofDigits (whole ++ fraction), e + shift)

/-- Reads an unsigned real. -/
def unsignedReal? (negative : Bool) (s : List Char) : Option Binary64 :=
  match decimal? s with
  | some (m, e) => some (.ofDecimal negative m e)
  | none =>
      let name := s.map Char.toLower
      if name = "inf".toList || name = "infinity".toList then
        some (.ofMagnitude negative Binary64.infinityMagnitude)
      else if name = "nan".toList then
        some (.ofMagnitude negative (Binary64.infinityMagnitude + Binary64.hiddenBit / 2))
      else none

/-- Reads a real. -/
def real? : List Char → Option Binary64
  | '-' :: rest => unsignedReal? true rest
  | '+' :: rest => unsignedReal? false rest
  | s => unsignedReal? false s

end PocketBasic.Number
