import FusionMemory.Lib.Edits

/-!
Redaction of a text before it is stored (`fm-engine/src/redact.rs`).

Credentials are redacted first, by another crate; then eight patterns, each in its own pass over
the text, in the order of `ORDER`. A number that only looks like that of a bank card, because its
check digit is wrong, is left.
-/

namespace FusionMemory

open Lib

/-! ### Patterns -/

section Patterns

variable (u : CharClasses)

/-- `[lo-hi]`. -/
def inRange (lo hi : Char) (c : Char) : Bool := lo ≤ c && c ≤ hi

def isLetter (c : Char) : Bool := inRange 'a' 'z' c || inRange 'A' 'Z' c

/-- `[a-zA-Z0-9._%+-]`. -/
def isLocalPart (c : Char) : Bool :=
  isLetter c || inRange '0' '9' c || c == '.' || c == '_' || c == '%' || c == '+' || c == '-'

/-- `[a-zA-Z0-9.-]`. -/
def isDomain (c : Char) : Bool := isLetter c || inRange '0' '9' c || c == '.' || c == '-'

/-- `[0-9a-fA-F]`. -/
def isHex (c : Char) : Bool := inRange '0' '9' c || inRange 'a' 'f' c || inRange 'A' 'F' c

def isPassportLetter (c : Char) : Bool :=
  c == 'E' || c == 'e' || c == 'G' || c == 'g' || c == 'D' || c == 'd'

def chr (c : Char) : Regex := .set (· == c)

/-- `\d`. -/
def digit : Regex := .set u.isDigit

/-- `[...]+`. -/
def oneOrMore (p : Char → Bool) : Regex := .seq (.set p) (.star p)

/-- `[0-9a-fA-F]{1,4}`. -/
def hexGroup : Regex := .rep (.set isHex) 1 4

/-- `:[0-9a-fA-F]{1,4}`. -/
def nextHexGroup : Regex := .seq (chr ':') hexGroup

/-- `(?:\+86|0086)?1[3-9]\d{9}`. -/
def phonePattern : Regex :=
  .seq (.rep (.alt (.seq (chr '+') (.seq (chr '8') (chr '6')))
      (.seq (chr '0') (.seq (chr '0') (.seq (chr '8') (chr '6'))))) 0 1)
    (.seq (chr '1') (.seq (.set (inRange '3' '9')) (.rep (digit u) 9 9)))

/-- `[a-zA-Z0-9._%+-]+@[a-zA-Z0-9.-]+\.[a-zA-Z]{2,}`. -/
def emailPattern : Regex :=
  .seq (oneOrMore isLocalPart) (.seq (chr '@') (.seq (oneOrMore isDomain)
    (.seq (chr '.') (.seq (.set isLetter) (oneOrMore isLetter)))))

/-- `[1-9]\d{5}(?:19|20)\d{2}(?:0[1-9]|1[0-2])(?:0[1-9]|[12]\d|3[01])\d{3}[\dXx]`. -/
def idcardPattern : Regex :=
  .seq (.set (inRange '1' '9')) (.seq (.rep (digit u) 5 5)
    (.seq (.alt (.seq (chr '1') (chr '9')) (.seq (chr '2') (chr '0')))
      (.seq (.rep (digit u) 2 2)
        (.seq (.alt (.seq (chr '0') (.set (inRange '1' '9')))
            (.seq (chr '1') (.set (inRange '0' '2'))))
          (.seq (.alt (.seq (chr '0') (.set (inRange '1' '9')))
              (.alt (.seq (.set (inRange '1' '2')) (digit u))
                (.seq (chr '3') (.set (inRange '0' '1')))))
            (.seq (.rep (digit u) 3 3)
              (.set fun c => u.isDigit c || c == 'X' || c == 'x')))))))

/-- `\d{13,19}`. -/
def bankcardPattern : Regex := .rep (digit u) 13 19

/-- `\b(?:\d{1,3}\.){3}\d{1,3}\b`. -/
def ipv4Pattern : Regex :=
  .seq .boundary (.seq (.rep (.seq (.rep (digit u) 1 3) (chr '.')) 3 3)
    (.seq (.rep (digit u) 1 3) .boundary))

/-- `\b[EeGgDd]\d{8}\b`. -/
def passportPattern : Regex :=
  .seq .boundary (.seq (.set isPassportLetter) (.seq (.rep (digit u) 8 8) .boundary))

/-- `\b[0-9a-fA-F]{1,4}(?::[0-9a-fA-F]{1,4}){2,7}\b|::[0-9a-fA-F]{1,4}(?::[0-9a-fA-F]{1,4}){0,6}\b`. -/
def ipv6Pattern : Regex :=
  .alt (.seq .boundary (.seq hexGroup (.seq (.rep nextHexGroup 2 7) .boundary)))
    (.seq (chr ':') (.seq (chr ':') (.seq hexGroup (.seq (.rep nextHexGroup 0 6) .boundary))))

/-- `\+\d{7,15}\b`. -/
def intlPhonePattern : Regex := .seq (chr '+') (.seq (.rep (digit u) 7 15) .boundary)

def PATTERNS : List Regex :=
  [phonePattern u, emailPattern, idcardPattern u, bankcardPattern u, ipv4Pattern u,
    passportPattern u, ipv6Pattern, intlPhonePattern u]

def TAGS : List String :=
  ["phone", "email", "idcard", "bankcard", "ip", "passport", "ip", "phone"]

/-- The order of the passes. -/
def ORDER : List Nat := [2, 3, 0, 1, 4, 5, 6, 7]

/-! ### Passes -/

/-- `[REDACTED:{tag}]`. -/
def placeholder (tag : String) : Mark := ⟨'[', "REDACTED:".toList ++ tag.toList, ']'⟩

/-- `to_digit(10)`. -/
def toDigit (c : Char) : Option Nat := if inRange '0' '9' c then some (c.toNat - 48) else none

def luhnFrom : List Char → Nat → Bool → Bool
  | [], sum, _ => sum % 10 == 0
  | c :: rest, sum, odd =>
      match toDigit c with
      | none => false
      | some d =>
          if odd then luhnFrom rest (sum + d) (!odd)
          else luhnFrom rest (sum + if d * 2 > 9 then d * 2 - 9 else d * 2) (!odd)

/-- `luhn_valid`. -/
def luhnValid (digits : List Char) : Bool := luhnFrom digits.reverse 0 true

/-- The pass of pattern `idx` over the text. -/
def redactPass (out : List Char) (idx : Nat) : List Char :=
  match (PATTERNS u)[idx]?, TAGS[idx]? with
  | some re, some tag =>
      if idx = 3 then
        re.replaceAll u.isWord
          (fun digits => if luhnValid digits then (placeholder tag).text else digits) out
      else re.replaceAll u.isWord (fun _ => (placeholder tag).text) out
  | _, _ => out

/-- `redact_text`, with the redaction of credentials. -/
def redactText (redactCredentials : String → String) (input : String) : String :=
  let afterCred := redactCredentials input
  if (PATTERNS u).any (fun re => re.isMatch u.isWord afterCred.toList) = false then afterCred
  else String.ofList (ORDER.foldl (redactPass u) afterCred.toList)

end Patterns

example : redactText .ofAscii id "call 13912345678 or mail a@b.com" =
    "call [REDACTED:phone] or mail [REDACTED:email]" := by decide +kernel

end FusionMemory
