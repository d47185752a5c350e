import CaddyPanel.Lib.Text

/-!
# Request URIs

The part of Go's `net/url` that decides which path a request URI names. A character of a URI stands
for one byte.
-/

namespace Url

open Text

def isHex (c : Char) : Bool :=
  ('0' ≤ c && c ≤ '9') || ('a' ≤ c && c ≤ 'f') || ('A' ≤ c && c ≤ 'F')

def unhex (c : Char) : Nat :=
  if '0' ≤ c ∧ c ≤ '9' then c.toNat - '0'.toNat
  else if 'a' ≤ c ∧ c ≤ 'f' then c.toNat - 'a'.toNat + 10
  else c.toNat - 'A'.toNat + 10

/-- `url.PathUnescape`: a percent sign has to stand before two hex digits. -/
def pathUnescape : Str → Option Str
  | [] => some []
  | '%' :: a :: b :: s =>
    if isHex a && isHex b then
      (pathUnescape s).map (Char.ofNat (16 * unhex a + unhex b) :: ·)
    else none
  | '%' :: _ => none
  | c :: s => (pathUnescape s).map (c :: ·)

def isLetter (c : Char) : Bool :=
  ('a' ≤ c && c ≤ 'z') || ('A' ≤ c && c ≤ 'Z')

/-- `getScheme` behind a first letter: the scheme and the rest, where a colon ends the scheme. -/
def schemeFrom : Str → Option (Str × Str)
  | [] => none
  | c :: s =>
    if c = ':' then some ([], s)
    else if isLetter c || c.isDigit || c ∈ ['+', '-', '.'] then
      (schemeFrom s).map fun (sch, rest) => (c :: sch, rest)
    else none

/-- `getScheme`; `none` is an error, an empty scheme means that there is none. -/
def getScheme (s : Str) : Option (Str × Str) :=
  match s with
  | [] => some ([], s)
  | c :: rest =>
    if c = ':' then none
    else if isLetter c then
      match schemeFrom rest with
      | some (sch, rest) => some (c :: sch, rest)
      | none => some ([], s)
    else some ([], s)

def containsCTLByte (s : Str) : Bool :=
  s.any fun c => c.toNat < 0x20 || c.toNat == 0x7f

/-- The decoded path of `url.ParseRequestURI`, `none` where it fails. `authorityOk` says which
authorities parse. -/
def parseRequestURI (authorityOk : Str → Bool) (raw : Str) : Option Str :=
  if containsCTLByte raw || raw.isEmpty then none
  else if raw = "*" then some raw
  else
    (getScheme raw).bind fun (scheme, rest) =>
      let rest := before '?' rest
      if ¬"/".toList.isPrefixOf rest then
        -- an opaque URI has no path
        if scheme = [] then none else some []
      else if scheme ≠ [] ∧ "//".toList.isPrefixOf rest then
        if authorityOk (before '/' (rest.drop 2)) then
          pathUnescape ((rest.drop 2).dropWhile (· ≠ '/'))
        else none
      else pathUnescape rest

example : pathUnescape "/a%2Fb%25" = some "/a/b%" := by decide

example : parseRequestURI (fun _ => true) "http://h/x%20y?q=%zz" = some "/x y" := by
  decide

end Url
