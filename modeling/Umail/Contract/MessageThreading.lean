import Umail.Contract.Text

/-! # RFC Message-ID coding

  `packages/api-contract/src/message-threading.ts`: which texts are
  normalized Message-IDs, and how a header is parsed into a list of them.
-/

namespace Umail

/-! ### Normalized ids -/

/-- `[^<>\s]` -/
def isIdChar (c : Char) : Bool := c != '<' && c != '>' && !isWhiteSpace c

/-- `[^<>\s]+@[^<>\s]+`: some `@` is neither the first nor the last character. -/
def isIdBody (body : List Char) : Bool := body.all isIdChar && body.tail.dropLast.contains '@'

/-- `NORMALIZED_RFC_MESSAGE_ID` -/
def isNormalizedRfcMessageId (raw : List Char) : Bool :=
  raw.head? == some '<' && raw.getLast? == some '>' && isIdBody raw.tail.dropLast

/-- A Message-ID in normal form, `<local@domain>`. -/
def NormalizedRfcMessageId : Type := { raw : String // isNormalizedRfcMessageId raw.toList = true }

instance : DecidableEq NormalizedRfcMessageId := inferInstanceAs (DecidableEq (Subtype _))

/-! ### Parsing a header -/

/-- Whether the text starts with a blank. -/
def startsBlank : List Char → Bool
  | c :: _ => isBlank c
  | [] => false

/-- `replace(/\r\n[ \t]+/g, " ")`; `skip` drops the blanks of the current match. -/
def unfoldCrlf (skip : Bool) : List Char → List Char
  | '\r' :: '\n' :: cs =>
    if startsBlank cs then ' ' :: unfoldCrlf true cs else '\r' :: '\n' :: unfoldCrlf false cs
  | c :: cs => if skip && isBlank c then unfoldCrlf true cs else c :: unfoldCrlf false cs
  | [] => []

/-- `replace(/\n[ \t]+/g, " ")`; `skip` drops the blanks of the current match. -/
def unfoldLf (skip : Bool) : List Char → List Char
  | c :: cs =>
    if skip && isBlank c then unfoldLf true cs
    else if c = '\n' && startsBlank cs then ' ' :: unfoldLf true cs
    else c :: unfoldLf false cs
  | [] => []

def unfoldHeader (raw : List Char) : List Char := unfoldLf false (unfoldCrlf false raw)

/-- Drops one pair of angle brackets around a non-empty text. -/
def stripAngles (raw : List Char) : List Char :=
  if raw.head? = some '<' && raw.getLast? = some '>' && decide (3 ≤ raw.length) then
    raw.tail.dropLast
  else raw

def decodeNormalizedRfcMessageId (raw : List Char) : Option NormalizedRfcMessageId :=
  if h : isNormalizedRfcMessageId (String.ofList raw).toList = true then
    some ⟨String.ofList raw, h⟩
  else none

def normalizeRfcMessageIdToken (raw : List Char) : Option NormalizedRfcMessageId :=
  if raw.isEmpty || raw.any isControl then none
  else
    let token := stripAngles raw
    if token.isEmpty || token.contains '<' || token.contains '>' || token.contains ' ' ||
        token.any isControl then none
    else
      match splitAtLast '@' token with
      | none => none
      | some (before, after) =>
        if before.isEmpty || after.isEmpty then none
        else decodeNormalizedRfcMessageId ('<' :: token ++ ['>'])

/-- The source splits at runs of blanks. Splitting at each blank only adds
    empty tokens, which are no ids. -/
def normalizeRfcMessageIdList (raw : String) : List NormalizedRfcMessageId :=
  keepFirst id [] (((unfoldHeader raw.toList).splitOnP isBlank).filterMap
    normalizeRfcMessageIdToken)

def normalizeRfcMessageId (raw : String) : Option NormalizedRfcMessageId :=
  match normalizeRfcMessageIdList raw with
  | [token] => some token
  | _ => none

def joinRfcMessageIds (ids : List NormalizedRfcMessageId) : String :=
  String.intercalate " " (ids.map (·.val))

example : (normalizeRfcMessageIdList "<a@x>\r\n\tb@y  <a@x> junk").map (·.val) =
    ["<a@x>", "<b@y>"] := by decide

end Umail
