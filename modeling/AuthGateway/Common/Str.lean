import AuthGateway.Lib.Regex
import AuthGateway.Lib.UrlParse
import AuthGateway.Lib.Utf8
import Mathlib.Data.List.DropRight

/-!
# common/str.go: masking

`MaskSensitiveInfo`, with its three expressions.  Every text is a string of bytes.
-/

namespace AuthGateway.Common

open Url Regex

/-! ### Expressions -/

/-- `\s`. -/
def isSpace (b : UInt8) : Bool := b == 9 || b == 10 || b == 12 || b == 13 || b == 32

def isAlphanumeric (b : UInt8) : Bool := isLetter b || isDigit b

/-- `\w`. -/
def isWord (b : UInt8) : Bool := isAlphanumeric b || b == code '_'

/-- `(http|https)://`: the scheme and what follows it. -/
def dropScheme (l : Bytes) : Option (Bytes × Bytes) :=
  if (ascii "http://").isPrefixOf l then some (ascii "http", l.drop 7)
  else if (ascii "https://").isPrefixOf l then some (ascii "https", l.drop 8)
  else none

/-- The bytes of one rune of a class. -/
def runeWidth (p : Nat → Bool) : Bytes → Option Nat
  | [] => none
  | b :: l => if p (Utf8.decodeRune b l).1 then some (Utf8.decodeRune b l).2 else none

/-- `[^\s/$.?#]`. -/
def isHostStart (rune : Nat) : Bool :=
  !([9, 10, 12, 13, 32].contains rune || ("/$.?#".toList.map Char.toNat).contains rune)

/-- `[^\s/$.?#].`: the bytes of two runes, the second of which is no line break. -/
def twoRunes (l : Bytes) : Option Nat :=
  (runeWidth isHostStart l).bind fun n =>
    (runeWidth (fun rune => rune != 10) (l.drop n)).map fun m => n + m

/-- `(http|https)://[^\s/$.?#].[^\s]*`: what follows the match. -/
def urlMatch (l : Bytes) : Option Bytes :=
  (dropScheme l).bind fun p =>
    (twoRunes p.2).map fun n => (p.2.drop n).dropWhile fun b => !isSpace b

def maskURLPattern (x : Place UInt8) : Option (Place UInt8) :=
  (urlMatch x.rest).map fun l => ⟨false, l⟩

/-- `[a-zA-Z0-9](?:[a-zA-Z0-9-]{0,61}[a-zA-Z0-9])?\.`. -/
def domainLabel : Regex UInt8 :=
  .seq (.seq (.one isAlphanumeric)
    (.upTo 1 (.seq (.upTo 61 (.one fun b => isAlphanumeric b || b == code '-'))
      (.one isAlphanumeric))))
    (.one (· == code '.'))

/-- `(?:…)+[a-zA-Z]{2,}`. -/
def domainBody : Regex UInt8 :=
  .seq (.seq domainLabel (.many domainLabel))
    (.seq (.one isLetter) (.seq (.one isLetter) (.many (.one isLetter))))

def maskDomainPattern : Regex UInt8 := .seq .boundary (.seq domainBody .boundary)

/-- `\d{1,3}`. -/
def ipDigits : Regex UInt8 := .seq (.one isDigit) (.upTo 2 (.one isDigit))

def ipPart : Regex UInt8 := .seq ipDigits (.one (· == code '.'))

/-- `(?:\d{1,3}\.){3}\d{1,3}`. -/
def ipBody : Regex UInt8 := .seq ipPart (.seq ipPart (.seq ipPart ipDigits))

def maskIPPattern : Regex UInt8 := .seq .boundary (.seq ipBody .boundary)

/-! ### Hosts -/

def maskHostTail (parts : List Bytes) : List Bytes :=
  if parts.length < 2 then parts
  else
    let lastPart := parts.getD (parts.length - 1) []
    let secondLastPart := parts.getD (parts.length - 2) []
    if lastPart.length = 2 ∧ secondLastPart.length ≤ 3 then [secondLastPart, lastPart]
    else [lastPart]

def maskHostForURL (host : Bytes) : Bytes :=
  let parts := host.splitOn (code '.')
  if parts.length < 2 then ascii "***"
  else ascii "***." ++ [code '.'].intercalate (maskHostTail parts)

def maskHostForPlainDomain (domain : Bytes) : Bytes :=
  let parts := domain.splitOn (code '.')
  if parts.length < 2 then domain
  else
    let tail := maskHostTail parts
    let numStars := max (parts.length - tail.length) 1
    -- the last dot is trimmed
    (List.replicate numStars (ascii "***.")).flatten.dropLast ++ ascii "." ++
      [code '.'].intercalate tail

/-! ### URLs -/

/-- `strings.Trim` of slashes. -/
def trimSlashes (path : Bytes) : Bytes :=
  (path.dropWhile (· == code '/')).rdropWhile (· == code '/')

def maskPath (path : Bytes) : Bytes :=
  if path ≠ [] ∧ path ≠ ascii "/" then
    ascii "/" ++ [code '/'].intercalate (((trimSlashes path).splitOn (code '/')).map fun part =>
      if part ≠ [] then ascii "***" else [])
  else if path = ascii "/" then ascii "/"
  else []

/-- The masked query; `range` is the order in which the keys are gone through. -/
def maskQuery (range : List Bytes → List Bytes) (rawQuery : Bytes) : Bytes :=
  if rawQuery = [] then []
  else
    match parseQuery rawQuery with
    | none => ascii "?***"
    | some values =>
      let maskedParams := (range (values.map Prod.fst).dedup).map (· ++ ascii "=***")
      if maskedParams = [] then [] else ascii "?" ++ [code '&'].intercalate maskedParams

/-- What is put for a URL that was found. -/
def maskURL (range : List Bytes → List Bytes) (urlStr : Bytes) : Bytes :=
  match (dropScheme urlStr).bind fun p => parseHierarchical p.1 p.2 with
  | none => urlStr
  | some u =>
    if u.host = [] then urlStr
    else u.scheme ++ ascii "://" ++ maskHostForURL u.host ++ maskPath u.path ++
      maskQuery range u.rawQuery

/-- The URLs are masked one after the other; each has its own order of the keys. -/
def maskURLs (range : Nat → List Bytes → List Bytes) (str : Bytes) : Bytes :=
  (pieces isWord maskURLPattern ⟨false, str⟩).zipIdx.flatMap fun p =>
    p.1.replaced (maskURL (range p.2))

def maskDomains (str : Bytes) : Bytes :=
  replaceAll isWord (first isWord maskDomainPattern) maskHostForPlainDomain str

def maskIPs (str : Bytes) : Bytes :=
  replaceAll isWord (first isWord maskIPPattern) (fun _ => ascii "***.***.***.***") str

def maskSensitiveInfo (range : Nat → List Bytes → List Bytes) (str : Bytes) : Bytes :=
  maskIPs (maskDomains (maskURLs range str))

end AuthGateway.Common
