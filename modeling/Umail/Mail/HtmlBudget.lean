import Umail.Mail.HtmlDepth

/-! # The budget of a mail HTML parse

  The limits of `apps/server/src/mail/html-parser.ts` and the class
  `MailHtmlParseBudget`, which counts what the tree adapter allocates while
  the parser runs.
-/

namespace Umail

/-! ### Limits -/

structure MailHtmlParseLimits where
  inputBytes : Nat
  allocatedNodes : Nat
  openElements : Nat
  finalTreeDepth : Nat
  attributesPerElement : Nat
  admittedAttributes : Nat

def MAIL_HTML_PARSE_LIMITS : MailHtmlParseLimits where
  inputBytes := 2 * 1024 * 1024
  allocatedNodes := 20000
  openElements := 128
  finalTreeDepth := finalTreeDepth
  attributesPerElement := 64
  admittedAttributes := 80000

inductive MailHtmlResourceLimit where
  | admitted_attributes
  | allocated_nodes
  | attributes_per_element
  | final_tree_depth
  | input_bytes
  | open_elements
  deriving DecidableEq

def MailHtmlResourceLimit.text : MailHtmlResourceLimit → String
  | .admitted_attributes => "admitted_attributes"
  | .allocated_nodes => "allocated_nodes"
  | .attributes_per_element => "attributes_per_element"
  | .final_tree_depth => "final_tree_depth"
  | .input_bytes => "input_bytes"
  | .open_elements => "open_elements"

/-- The limit as a person reads it. -/
def describeMailHtmlLimit : MailHtmlResourceLimit → String
  | .admitted_attributes => toString MAIL_HTML_PARSE_LIMITS.admittedAttributes ++ "-attribute"
  | .allocated_nodes => toString MAIL_HTML_PARSE_LIMITS.allocatedNodes ++ "-node"
  | .attributes_per_element =>
    toString MAIL_HTML_PARSE_LIMITS.attributesPerElement ++ "-attributes-per-element"
  | .final_tree_depth | .open_elements =>
    toString MAIL_HTML_PARSE_LIMITS.openElements ++ "-level nesting"
  | .input_bytes =>
    toString (MAIL_HTML_PARSE_LIMITS.inputBytes / 1024 / 1024) ++ " MiB size"

end Umail
