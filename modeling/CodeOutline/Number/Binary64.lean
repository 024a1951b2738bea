/-!
# Number.Binary64 — decimal numbers by way of 64-bit floating point

Numbers are read as 64-bit binary floating point, and written back with the fewest digits that read as
the same number.

Everything is exact arithmetic on naturals. A positive finite number is `m * 2 ^ q` with `m < 2 ^ 53`
and `-1074 ≤ q ≤ 971`. Reading rounds to the nearest such number, to the even `m` when two are equally
near. Writing tries one digit, then two, up to seventeen, and takes the first decimal that lies among
the reals that round to the number, and the nearer one if both neighbours do. Numbers are written
without an exponent and always with a decimal point.
-/

namespace CodeOutline.Number

structure Ratio where
  num : Nat
  den : Nat

namespace Ratio

def ofPow (m base : Nat) (e : Int) : Ratio :=
  if 0 ≤ e then ⟨m * base.pow e.toNat, 1⟩ else ⟨m, base.pow (-e).toNat⟩

def lt (a b : Ratio) : Bool := a.num * b.den < b.num * a.den

def divPow (a : Ratio) (base : Nat) (e : Int) : Ratio :=
  if 0 ≤ e then ⟨a.num, a.den * base.pow e.toNat⟩ else ⟨a.num * base.pow (-e).toNat, a.den⟩

/-- The nearest natural, the even one of two that are equally near. -/
def roundEven (a : Ratio) : Nat :=
  let d := a.num / a.den
  let r := a.num % a.den
  if a.den < 2 * r ∨ (2 * r = a.den ∧ d % 2 = 1) then d + 1 else d

end Ratio

/-- A positive finite floating-point number `m * 2 ^ q`. -/
structure Binary64 where
  m : Nat
  q : Int
  deriving DecidableEq, Repr

namespace Binary64

/-- The floating-point number nearest to a positive fraction: zero below the least, and `none` above
the greatest. -/
def ofRatio (a : Ratio) : Option Binary64 :=
  let least : Int := max ((a.num.log2 : Int) - a.den.log2 - 53) (-1074)
  let q := if (a.divPow 2 least).lt ⟨Nat.pow 2 53, 1⟩ then least else least + 1
  let m := (a.divPow 2 q).roundEven
  let r : Binary64 := if m = Nat.pow 2 53 then ⟨Nat.pow 2 52, q + 1⟩ else ⟨m, q⟩
  if 971 < r.q then none else some r

def value (x : Binary64) : Ratio := Ratio.ofPow x.m 2 x.q

/-- Whether a decimal `c * 10 ^ p` rounds to a number: it lies between the midpoints to the two
neighbours, and may be one of them if `m` is even. -/
def readsAs (x : Binary64) (c : Nat) (p : Int) : Bool :=
  let low := if x.m = Nat.pow 2 52 ∧ -1074 < x.q then Ratio.ofPow (4 * x.m - 1) 2 (x.q - 2)
    else Ratio.ofPow (2 * x.m - 1) 2 (x.q - 1)
  let high := Ratio.ofPow (2 * x.m + 1) 2 (x.q - 1)
  let d := Ratio.ofPow c 10 p
  if x.m % 2 = 0 then !d.lt low && !high.lt d else low.lt d && d.lt high

/-- The least power of ten above a number, found from `10 ^ lowest` upwards. -/
def magnitudeFrom (a : Ratio) : Nat → Int → Int
  | 0, e => e
  | n + 1, e => if a.lt (Ratio.ofPow 1 10 e) then e else magnitudeFrom a n (e + 1)

def magnitude (a : Ratio) : Int := magnitudeFrom a 640 (-325)

/-- The decimal with a number of digits that reads back as a number, if there is one: the nearer of
the two neighbours of the number if both do, and the greater if they are equally near. -/
def withDigits (x : Binary64) (e : Int) (n : Nat) : Option (Nat × Int) :=
  let p := e - n
  let scaled := x.value.divPow 10 p
  let below := scaled.num / scaled.den
  let nearer := if scaled.den ≤ 2 * (scaled.num % scaled.den) then below + 1 else below
  [nearer, below, below + 1].findSome? fun c => if x.readsAs c p then some (c, p) else none

/-- The shortest decimal that reads back as a number: its digits as a natural, and the power of ten. -/
def shortest (x : Binary64) : Nat × Int :=
  let e := magnitude x.value
  ((List.range 17).findSome? fun i => x.withDigits e (i + 1)).getD (0, 0)

end Binary64

/-- A decimal in positional notation, with a digit at least on each side of its point and no needless
zero after it. -/
def positional (c : Nat) (p : Int) : String :=
  let zeros := ((Nat.toDigits 10 c).reverse.takeWhile (· == '0')).length
  let c := c / Nat.pow 10 zeros
  let p := p + zeros
  let digits := Nat.toDigits 10 c
  if 0 ≤ p then String.ofList (digits ++ List.replicate p.toNat '0') ++ ".0"
  else
    let places := (-p).toNat
    let padded := List.replicate (places + 1 - digits.length) '0' ++ digits
    String.ofList (padded.take (padded.length - places)) ++ "." ++
      String.ofList (padded.drop (padded.length - places))

def digitRun (s : List Char) : List Char × List Char :=
  (s.takeWhile Char.isDigit, s.dropWhile Char.isDigit)

def ofDigits (s : List Char) : Nat :=
  s.foldl (fun n c => 10 * n + (c.toNat - '0'.toNat)) 0

/-- An exponent: nothing, or `e` with a sign perhaps and digits. -/
def readExponent : List Char → Option Int
  | [] => some 0
  | c :: s =>
      if c = 'e' ∨ c = 'E' then
        let (negative, s) := match s with
          | '-' :: r => (true, r)
          | '+' :: r => (false, r)
          | _ => (false, s)
        let (digits, rest) := digitRun s
        if digits.isEmpty ∨ !rest.isEmpty then none
        else
          let n : Int := ofDigits (digits.dropWhile (· == '0') |>.take 6)
          let n := if 6 < (digits.dropWhile (· == '0')).length then 1000000 else n
          some (if negative then -n else n)
      else none

/-- An unsigned decimal: digits with a point perhaps, at least one digit, and an exponent perhaps. -/
def readDecimal (s : List Char) : Option (Nat × Int) :=
  let (whole, s) := digitRun s
  let (fraction, s) := match s with
    | '.' :: r => digitRun r
    | _ => ([], s)
  if whole.isEmpty && fraction.isEmpty then none
  else (readExponent s).map fun e => (ofDigits (whole ++ fraction), e - fraction.length)

/-- The text a decimal is written back as after being read into floating point, if it is finite there
and a decimal at all. -/
def floatText? (s : List Char) : Option String :=
  let (sign, s) := match s with
    | '-' :: r => ("-", r)
    | '+' :: r => ("", r)
    | _ => ("", s)
  match readDecimal s with
  | none => none
  | some (c, e) =>
      let size := (Nat.toDigits 10 c).length + e
      if c = 0 ∨ size < -400 then some (sign ++ "0.0")
      else if 400 < size then none
      else
        match Binary64.ofRatio (Ratio.ofPow c 10 e) with
        | none => none
        | some x =>
            if x.m = 0 then some (sign ++ "0.0")
            else
              let (c, p) := x.shortest
              some (sign ++ positional c p)

end CodeOutline.Number
