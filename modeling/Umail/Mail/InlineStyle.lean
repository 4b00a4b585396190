import Mathlib.Data.Int.Log
import Mathlib.Data.Rat.Floor
import Umail.Contract.Text

/-! # Inline styles

  The style filter of `apps/server/src/mail/html-policy.ts`. A style is parsed
  into declarations, and a declaration is kept when its property is known and
  its value is recognized in full. What is kept can neither fetch anything nor
  reach outside its element.
-/

namespace Umail

/-! ### Syntax trees -/

/-- `false`, `true`, or the identifier after the `!`. -/
inductive Important where
  | no
  | yes
  | ident (name : String)
  deriving DecidableEq

/-- A node of css-tree. The kinds that the filter never looks into share one
    constructor. -/
inductive CssNode where
  | declarationList (children : List CssNode)
  | declaration (important : Important) (property : String) (value : CssNode)
  | value (children : List CssNode)
  | identifier (name : String)
  | hash (value : String)
  | function (name : String) (children : List CssNode)
  | number (value : String)
  | percentage (value : String)
  | dimension (value unit : String)
  | string (value : String)
  | operator (value : String)
  | whiteSpace (value : String)
  | comment (value : String)
  | url (value : String)
  | raw (value : String)
  | parentheses (children : List CssNode)
  | brackets (children : List CssNode)
  | block (children : List CssNode)
  | other (type : String) (children : List CssNode)

structure Declaration where
  important : Important
  property : String
  value : CssNode

def Declaration.node (d : Declaration) : CssNode := .declaration d.important d.property d.value

/-- `css-tree/parser` in the context `declarationList`, `none` where it
    throws, and `css-tree/generator`. -/
class CssTree where
  parse : String → Option CssNode
  generate : CssNode → String

/-! ### Numbers -/

/-- To the nearest integer, and to the even one of two. -/
def roundHalfEven (q : Rat) : Int :=
  let below := ⌊q⌋
  if q - below < 1 / 2 then below
  else if 1 / 2 < q - below then below + 1
  else if below % 2 = 0 then below else below + 1

/-- The double next to a rational, without an upper bound. -/
def toDouble (q : Rat) : Rat :=
  let exponent := max (Int.log 2 |q| - 52) (-1074)
  roundHalfEven (q / 2 ^ exponent) * 2 ^ exponent

def splitSign : List Char → Bool × List Char
  | '-' :: rest => (true, rest)
  | '+' :: rest => (false, rest)
  | rest => (false, rest)

def digitsValue (digits : List Char) : Nat :=
  digits.foldl (fun n c => 10 * n + (c.toNat - '0'.toNat)) 0

def exponentValue : List Char → Option Int
  | [] => some 0
  | e :: rest =>
    let (negative, digits) := splitSign rest
    if (e ≠ 'e' ∧ e ≠ 'E') ∨ digits.isEmpty ∨ digits.all Char.isDigit = false then none
    else some (if negative then -digitsValue digits else digitsValue digits)

/-- `Number(value)` of a CSS number token; `none` is `NaN`. -/
def jsNumber (value : String) : Option Rat :=
  let (negative, rest) := splitSign (trim value.toList)
  let whole := rest.takeWhile Char.isDigit
  let afterWhole := rest.dropWhile Char.isDigit
  let (fraction, afterFraction) :=
    match afterWhole with
    | '.' :: rest => (rest.takeWhile Char.isDigit, rest.dropWhile Char.isDigit)
    | rest => ([], rest)
  if whole.isEmpty && fraction.isEmpty then none
  else (exponentValue afterFraction).map fun exponent =>
    let magnitude :=
      digitsValue (whole ++ fraction) * (10 : Rat) ^ (exponent - (fraction.length : Int))
    toDouble (if negative then -magnitude else magnitude)

/-- `Number(value) === 0` -/
def isZero (value : String) : Bool := jsNumber value = some 0

/-! ### Tables -/

def COLOR_PROPERTIES : List String :=
  ["color", "background-color", "border-color", "border-top-color", "border-right-color",
   "border-bottom-color", "border-left-color"]

def LENGTH_PROPERTIES : List String :=
  ["width", "min-width", "max-width", "height", "min-height", "max-height", "margin",
   "margin-top", "margin-right", "margin-bottom", "margin-left", "padding", "padding-top",
   "padding-right", "padding-bottom", "padding-left", "border-width", "border-top-width",
   "border-right-width", "border-bottom-width", "border-left-width", "border-radius",
   "border-top-left-radius", "border-top-right-radius", "border-bottom-right-radius",
   "border-bottom-left-radius", "border-spacing", "font-size", "letter-spacing", "text-indent",
   "word-spacing"]

def BORDER_PROPERTIES : List String :=
  ["border", "border-top", "border-right", "border-bottom", "border-left"]

def BORDER_STYLES : List String :=
  ["none", "hidden", "dotted", "dashed", "solid", "double", "groove", "ridge", "inset", "outset"]

def IDENTIFIER_PROPERTIES : List (String × List String) :=
  [("display", ["block", "inline", "inline-block", "table", "inline-table", "table-row-group",
      "table-header-group", "table-footer-group", "table-row", "table-column-group",
      "table-column", "table-cell", "table-caption"]),
   ("border-style", BORDER_STYLES),
   ("border-top-style", BORDER_STYLES),
   ("border-right-style", BORDER_STYLES),
   ("border-bottom-style", BORDER_STYLES),
   ("border-left-style", BORDER_STYLES),
   ("border-collapse", ["collapse", "separate"]),
   ("table-layout", ["auto", "fixed"]),
   ("font-style", ["normal", "italic", "oblique"]),
   ("font-variant", ["normal", "small-caps"]),
   ("text-align", ["start", "end", "left", "right", "center", "justify", "match-parent"]),
   ("text-transform", ["none", "capitalize", "uppercase", "lowercase"]),
   ("text-decoration-style", ["solid", "double", "dotted", "dashed", "wavy"]),
   ("white-space", ["normal", "pre", "nowrap", "pre-wrap", "pre-line", "break-spaces"]),
   ("word-break", ["normal", "break-all", "keep-all", "break-word"]),
   ("overflow-wrap", ["normal", "break-word", "anywhere"])]

/-- The properties that have a recognizer of their own. -/
def OTHER_PROPERTIES : List String :=
  ["font-family", "font-weight", "line-height", "vertical-align", "text-decoration",
   "text-decoration-line"]

def COLOR_FUNCTIONS : List String := ["rgb", "rgba", "hsl", "hsla"]

def COLOR_FUNCTION_OPERATORS : List String := [",", "/"]

def COLOR_NAMES : List String :=
  ["aqua", "black", "blue", "fuchsia", "gray", "green", "lime", "maroon", "navy", "olive",
   "purple", "red", "silver", "teal", "transparent", "white", "yellow"]

def BORDER_IDENTIFIERS : List String :=
  BORDER_STYLES ++ ["thin", "medium", "thick"] ++ COLOR_NAMES

def CSS_WIDE_KEYWORDS : List String := ["inherit", "initial", "unset", "revert"]

def LENGTH_UNITS : List String :=
  ["px", "em", "rem", "pt", "pc", "in", "cm", "mm", "q", "ch", "ex"]

def FONT_WEIGHTS : List String := ["normal", "bold", "bolder", "lighter"]

def TEXT_DECORATIONS : List String := ["none", "underline", "overline", "line-through"]

def VERTICAL_ALIGNMENTS : List String :=
  ["baseline", "sub", "super", "text-top", "text-bottom", "middle", "top", "bottom"]

def MAX_INLINE_STYLE_BYTES : Nat := 8 * 1024

/-! ### Recognizers -/

/-- What a recognizer says to one node of a value. -/
inductive Verdict where
  | skip
  | count
  | reject
  deriving DecidableEq

/-- The loop of the recognizers: the nodes counted, unless one is rejected. -/
def tally (verdict : CssNode → Verdict) : List CssNode → Option Nat
  | [] => some 0
  | node :: rest =>
    match verdict node with
    | .skip => tally verdict rest
    | .count => (tally verdict rest).map (· + 1)
    | .reject => none

/-- `return count > 0` -/
def someCounted (verdict : CssNode → Verdict) (children : List CssNode) : Bool :=
  (tally verdict children).any (0 < ·)

def countIf (b : Bool) : Verdict := if b then .count else .reject

def skipIf (b : Bool) : Verdict := if b then .skip else .reject

def CssNode.isWhiteSpace : CssNode → Bool
  | .whiteSpace _ => true
  | _ => false

def singleNonWhitespaceChild (children : List CssNode) : Option CssNode :=
  match children.filter (!·.isWhiteSpace) with
  | [child] => some child
  | _ => none

/-- `/^(?:[0-9a-f]{3,4}|[0-9a-f]{6}|[0-9a-f]{8})$/iu` -/
def isHexColor (value : String) : Bool :=
  (value.toList.length ∈ [3, 4, 6, 8]) && value.toList.all fun c =>
    c.isDigit || ('a' ≤ c && c ≤ 'f') || ('A' ≤ c && c ≤ 'F')

/-- `property.startsWith(start)` -/
def startsWith (property start : String) : Bool := start.toList.isPrefixOf property.toList

/-- `property.endsWith(ending)` -/
def endsWith (property ending : String) : Bool := ending.toList.isSuffixOf property.toList

/-- `property.includes(part)` -/
def includes (property part : String) : Bool :=
  property.toList.tails.any (part.toList.isPrefixOf ·)

def lengthIdentifiers (property : String) : List String :=
  if startsWith property "margin" then ["auto"]
  else if property = "width" || endsWith property "width" || endsWith property "height" then
    ["auto", "min-content", "max-content", "fit-content"]
  else if property = "font-size" then
    ["xx-small", "x-small", "small", "medium", "large", "x-large", "xx-large", "smaller", "larger"]
  else if property = "letter-spacing" || property = "word-spacing" then ["normal"]
  else []

section recognizers
variable [Unicode]

def isLengthUnit (unit : String) : Bool := toLowerCase unit ∈ LENGTH_UNITS

def colorArgument : CssNode → Verdict
  | .number _ => .count
  | .percentage _ => .count
  | .dimension _ unit => countIf (toLowerCase unit = "deg")
  | .whiteSpace _ => .skip
  | .operator value => skipIf (value ∈ COLOR_FUNCTION_OPERATORS)
  | _ => .reject

def isColorFunction (name : String) (children : List CssNode) : Bool :=
  toLowerCase name ∈ COLOR_FUNCTIONS &&
    (tally colorArgument children).any fun componentCount =>
      componentCount = 3 || componentCount = 4

def isColorValue (children : List CssNode) : Bool :=
  match singleNonWhitespaceChild children with
  | some (.identifier name) => toLowerCase name ∈ COLOR_NAMES
  | some (.hash value) => isHexColor value
  | some (.function name children) => isColorFunction name children
  | _ => false

def lengthPart (property : String) : CssNode → Verdict
  | .whiteSpace _ => .skip
  | .percentage _ => .count
  | .number value => countIf (isZero value)
  | .dimension _ unit => countIf (isLengthUnit unit)
  | .identifier name => countIf (toLowerCase name ∈ lengthIdentifiers property)
  | .operator value => skipIf (includes property "radius" && value = "/")
  | _ => .reject

def isLengthValue (property : String) (children : List CssNode) : Bool :=
  someCounted (lengthPart property) children

def borderPart : CssNode → Verdict
  | .whiteSpace _ => .skip
  | .hash value => countIf (isHexColor value)
  | .number value => countIf (isZero value)
  | .dimension _ unit => countIf (isLengthUnit unit)
  | .identifier name => countIf (toLowerCase name ∈ BORDER_IDENTIFIERS)
  | .function name children => countIf (isColorFunction name children)
  | _ => .reject

def isBorderValue (children : List CssNode) : Bool := someCounted borderPart children

def identifierPart (allowed : List String) : CssNode → Verdict
  | .whiteSpace _ => .skip
  | .identifier name => countIf (toLowerCase name ∈ allowed)
  | _ => .reject

def containsOnlyIdentifiers (children : List CssNode) (allowed : List String) : Bool :=
  someCounted (identifierPart allowed) children

def fontFamilyPart : CssNode → Verdict
  | .whiteSpace _ => .skip
  | .identifier name => countIf (toLowerCase name ∉ CSS_WIDE_KEYWORDS)
  | .string _ => .count
  | .operator value => skipIf (value = ",")
  | _ => .reject

def isFontFamilyValue (children : List CssNode) : Bool := someCounted fontFamilyPart children

def isFontWeightValue (children : List CssNode) : Bool :=
  match singleNonWhitespaceChild children with
  | some (.identifier name) => toLowerCase name ∈ FONT_WEIGHTS
  | some (.number value) => (jsNumber value).any fun weight => 1 ≤ weight && weight ≤ 1000
  | _ => false

def isLineHeightValue (children : List CssNode) : Bool :=
  match singleNonWhitespaceChild children with
  | some (.number _) => true
  | some (.percentage _) => true
  | some (.dimension _ unit) => isLengthUnit unit
  | some (.identifier name) => toLowerCase name = "normal"
  | _ => false

def isTextDecorationValue (children : List CssNode) : Bool :=
  containsOnlyIdentifiers children TEXT_DECORATIONS

def isVerticalAlignValue (children : List CssNode) : Bool :=
  match singleNonWhitespaceChild children with
  | some (.percentage _) => true
  | some (.number value) => isZero value
  | some (.dimension _ unit) => isLengthUnit unit
  | some (.identifier name) => toLowerCase name ∈ VERTICAL_ALIGNMENTS
  | _ => false

/-- The recognizer of a property in lower case. -/
def isAllowedValue (property : String) (children : List CssNode) : Bool :=
  if property ∈ COLOR_PROPERTIES then isColorValue children
  else if property ∈ LENGTH_PROPERTIES then isLengthValue property children
  else if property ∈ BORDER_PROPERTIES then isBorderValue children
  else
    match IDENTIFIER_PROPERTIES.lookup property with
    | some identifiers => containsOnlyIdentifiers children identifiers
    | none =>
      if property = "font-family" then isFontFamilyValue children
      else if property = "font-weight" then isFontWeightValue children
      else if property = "line-height" then isLineHeightValue children
      else if property = "vertical-align" then isVerticalAlignValue children
      else if property = "text-decoration" || property = "text-decoration-line" then
        isTextDecorationValue children
      else false

def isAllowedDeclaration (d : Declaration) : Bool :=
  let property := toLowerCase d.property
  match d.value with
  | .value children =>
    d.important = .no && !startsWith property "-" && isAllowedValue property children
  | _ => false

/-! ### The filter -/

/-- The declarations to keep, `none` when another node is met. -/
def acceptDeclarations : List CssNode → Option (List Declaration)
  | [] => some []
  | .whiteSpace _ :: rest => acceptDeclarations rest
  | .comment _ :: rest => acceptDeclarations rest
  | .declaration important property value :: rest =>
    (acceptDeclarations rest).map fun accepted =>
      let d := { important, property, value }
      if isAllowedDeclaration d then d :: accepted else accepted
  | _ => none

variable [CssTree]

/-- The declarations written out again. -/
def styleText (accepted : List Declaration) : Option String :=
  if accepted.isEmpty then none
  else some (";".intercalate (accepted.map fun d => CssTree.generate d.node))

/-- The declarations that the filter keeps of a style. -/
def acceptedDeclarations (source : String) : Option (List Declaration) :=
  match CssTree.parse source with
  | some (.declarationList children) => acceptDeclarations children
  | _ => none

def sanitizeInlineStyle : Option String → Option String
  | none => none
  | some source =>
    if MAX_INLINE_STYLE_BYTES < source.utf8ByteSize then none
    else (acceptedDeclarations source).bind styleText

end recognizers

/-! ### The loop of the recognizers -/

theorem tally_accepts {verdict : CssNode → Verdict} {nodes : List CssNode} {n : Nat}
    (h : tally verdict nodes = some n) : ∀ node ∈ nodes, verdict node ≠ .reject := by
  induction nodes generalizing n with
  | nil => simp
  | cons first rest ih =>
    simp only [tally] at h
    intro node hmem
    rcases hv : verdict first with _ | _ | _ <;> rw [hv] at h
    · rcases List.mem_cons.mp hmem with rfl | hrest
      · simp [hv]
      · exact ih h node hrest
    · obtain ⟨m, hm, -⟩ := Option.map_eq_some_iff.mp h
      rcases List.mem_cons.mp hmem with rfl | hrest
      · simp [hv]
      · exact ih hm node hrest
    · cases h

theorem tally_counts {verdict : CssNode → Verdict} {nodes : List CssNode} {n : Nat}
    (h : tally verdict nodes = some n) :
    (nodes.filter fun node => verdict node = .count).length = n := by
  induction nodes generalizing n with
  | nil => simpa [tally] using h
  | cons first rest ih =>
    simp only [tally] at h
    rcases hv : verdict first with _ | _ | _ <;> rw [hv] at h
    · simpa [hv] using ih h
    · obtain ⟨m, hm, rfl⟩ := Option.map_eq_some_iff.mp h
      simpa [hv] using ih hm
    · cases h

theorem someCounted_forall {verdict : CssNode → Verdict} {P : CssNode → Prop}
    (hP : ∀ node, verdict node ≠ .reject → P node) {children : List CssNode}
    (h : someCounted verdict children = true) : ∀ child ∈ children, P child := by
  obtain ⟨n, hn, -⟩ := (Option.any_eq_true _ _).mp h
  exact fun child hmem => hP child (tally_accepts hn child hmem)

@[simp] theorem countIf_ne_reject {b : Bool} : countIf b ≠ .reject ↔ b = true := by
  cases b <;> simp [countIf]

@[simp] theorem skipIf_ne_reject {b : Bool} : skipIf b ≠ .reject ↔ b = true := by
  cases b <;> simp [skipIf]

@[simp] theorem countIf_eq_count {b : Bool} : countIf b = .count ↔ b = true := by
  cases b <;> simp [countIf]

@[simp] theorem skipIf_ne_count {b : Bool} : skipIf b ≠ .count := by
  cases b <;> simp [skipIf]

/-! ### What a kept declaration is -/

def CssNode.children : CssNode → List CssNode
  | .declarationList children => children
  | .declaration _ _ parsed => [parsed]
  | .value children => children
  | .function _ children => children
  | .parentheses children => children
  | .brackets children => children
  | .block children => children
  | .other _ children => children
  | _ => []

/-- A node of a tree, at any depth. -/
inductive CssNode.Within (node : CssNode) : CssNode → Prop where
  | self : Within node node
  | child {child tree : CssNode} (mem : child ∈ tree.children) (within : Within node child) :
      Within node tree

section safety
variable [Unicode]

/-- A number, a percentage or an angle in degrees. -/
def CssNode.isColorComponent : CssNode → Bool
  | .number _ => true
  | .percentage _ => true
  | .dimension _ unit => toLowerCase unit = "deg"
  | _ => false

/-- A comma, a slash or white space. -/
def CssNode.isColorSeparator : CssNode → Bool
  | .whiteSpace _ => true
  | .operator symbol => symbol = "," || symbol = "/"
  | _ => false

/-- A call of `rgb`, `rgba`, `hsl` or `hsla` with three or four components and
    nothing else but separators. -/
structure IsColorCall (name : String) (arguments : List CssNode) : Prop where
  name : toLowerCase name ∈ ["rgb", "rgba", "hsl", "hsla"]
  «only» : ∀ node ∈ arguments, node.isColorComponent ∨ node.isColorSeparator
  components : (arguments.filter CssNode.isColorComponent).length = 3 ∨
    (arguments.filter CssNode.isColorComponent).length = 4

/-- A node that neither fetches nor nests anything. -/
def CssNode.Harmless : CssNode → Prop
  | .identifier _ | .hash _ | .number _ | .percentage _ | .dimension _ _ => True
  | .string _ | .operator _ | .whiteSpace _ => True
  | .function name arguments => IsColorCall name arguments
  | .declarationList _ | .declaration _ _ _ | .value _ | .comment _ | .url _ | .raw _ => False
  | .parentheses _ | .brackets _ | .block _ | .other _ _ => False

/-- The properties that a kept declaration may have. -/
def ALLOWED_PROPERTIES : List String :=
  COLOR_PROPERTIES ++ LENGTH_PROPERTIES ++ BORDER_PROPERTIES ++
    IDENTIFIER_PROPERTIES.map Prod.fst ++ OTHER_PROPERTIES

/-- A declaration that neither fetches anything nor escapes its element. -/
structure SafeDeclaration (d : Declaration) : Prop where
  property : toLowerCase d.property ∈ ALLOWED_PROPERTIES
  /-- neither a custom nor a vendor property -/
  unprefixed : startsWith (toLowerCase d.property) "-" = false
  important : d.important = .no
  value : ∃ children, d.value = .value children ∧
    ∀ child ∈ children, ∀ node : CssNode, node.Within child → node.Harmless

/-- A node that may stand in a style. -/
def CssNode.isExpected : CssNode → Bool
  | .declaration _ _ _ => true
  | .whiteSpace _ => true
  | .comment _ => true
  | _ => false

/-- The declaration of a node, when it is allowed. -/
def CssNode.kept : CssNode → Option Declaration
  | .declaration important property parsed =>
    let d : Declaration := ⟨important, property, parsed⟩
    if isAllowedDeclaration d then some d else none
  | _ => none

/-! #### Harmless values -/

theorem colorArgument_count (node : CssNode) :
    colorArgument node = .count ↔ node.isColorComponent = true := by
  cases node <;> simp [colorArgument, CssNode.isColorComponent]

theorem colorArgument_accepts {node : CssNode} (h : colorArgument node ≠ .reject) :
    node.isColorComponent ∨ node.isColorSeparator := by
  cases node <;>
    simp_all [colorArgument, CssNode.isColorComponent, CssNode.isColorSeparator,
      COLOR_FUNCTION_OPERATORS]

theorem isColorCall_of_isColorFunction {name : String} {arguments : List CssNode}
    (h : isColorFunction name arguments = true) : IsColorCall name arguments := by
  simp only [isColorFunction, Bool.and_eq_true, decide_eq_true_eq, Option.any_eq_true] at h
  obtain ⟨hname, n, hn, hcount⟩ := h
  have hcomponents : (arguments.filter CssNode.isColorComponent).length = n := by
    rw [← tally_counts hn]
    congr 1
    refine List.filter_congr fun node _ => ?_
    rw [Bool.eq_iff_iff, decide_eq_true_eq, colorArgument_count]
  exact {
    name := hname
    «only» := fun node hmem => colorArgument_accepts (tally_accepts hn node hmem)
    components := by rw [hcomponents]; simpa using hcount }

/-- **A harmless node is harmless throughout**: only color functions have
    children, and their arguments have none. -/
theorem CssNode.Harmless.within {node tree : CssNode} (h : tree.Harmless)
    (hwithin : node.Within tree) : node.Harmless := by
  induction hwithin with
  | self => exact h
  | @child child tree mem within ih =>
    refine ih ?_
    cases tree with
    | function name arguments =>
      have hargument := IsColorCall.«only» h child (by simpa [CssNode.children] using mem)
      cases child <;>
        simp_all [CssNode.Harmless, CssNode.isColorComponent, CssNode.isColorSeparator]
    | _ => simp_all [CssNode.Harmless, CssNode.children]

theorem lengthPart_harmless {property : String} (node : CssNode)
    (h : lengthPart property node ≠ .reject) : node.Harmless := by
  cases node <;> simp_all [lengthPart, CssNode.Harmless]

theorem borderPart_harmless (node : CssNode) (h : borderPart node ≠ .reject) :
    node.Harmless := by
  cases node with
  | function name arguments =>
    exact isColorCall_of_isColorFunction (countIf_ne_reject.mp h)
  | _ => simp_all [borderPart, CssNode.Harmless]

theorem identifierPart_harmless {allowed : List String} (node : CssNode)
    (h : identifierPart allowed node ≠ .reject) : node.Harmless := by
  cases node <;> simp_all [identifierPart, CssNode.Harmless]

theorem fontFamilyPart_harmless (node : CssNode) (h : fontFamilyPart node ≠ .reject) :
    node.Harmless := by
  cases node <;> simp_all [fontFamilyPart, CssNode.Harmless]

theorem singleNonWhitespaceChild_harmless {children : List CssNode} {node : CssNode}
    (h : singleNonWhitespaceChild children = some node) (hnode : node.Harmless) :
    ∀ child ∈ children, child.Harmless := by
  intro child hmem
  by_cases hspace : child.isWhiteSpace = true
  · cases child <;> simp_all [CssNode.isWhiteSpace, CssNode.Harmless]
  · have hsolid : child ∈ children.filter (!·.isWhiteSpace) :=
      List.mem_filter.mpr ⟨hmem, by simpa using hspace⟩
    unfold singleNonWhitespaceChild at h
    split at h
    · next only heq =>
      rw [heq, List.mem_singleton] at hsolid
      rwa [hsolid, Option.some.inj h]
    · cases h

/-- What every recognizer is held to. -/
def Admits (recognizer : List CssNode → Bool) : Prop :=
  ∀ children, recognizer children = true → ∀ child ∈ children, child.Harmless

theorem admits_someCounted {verdict : CssNode → Verdict}
    (h : ∀ node, verdict node ≠ .reject → node.Harmless) : Admits (someCounted verdict) :=
  fun _ hcounted => someCounted_forall h hcounted

theorem isColorValue_admits : Admits isColorValue := by
  intro children h
  unfold isColorValue at h
  split at h
  · next hsingle => exact singleNonWhitespaceChild_harmless hsingle trivial
  · next hsingle => exact singleNonWhitespaceChild_harmless hsingle trivial
  · next hsingle =>
    exact singleNonWhitespaceChild_harmless hsingle (isColorCall_of_isColorFunction h)
  · cases h

theorem isLengthValue_admits (property : String) : Admits (isLengthValue property) :=
  admits_someCounted lengthPart_harmless

theorem isBorderValue_admits : Admits isBorderValue := admits_someCounted borderPart_harmless

theorem containsOnlyIdentifiers_admits (allowed : List String) :
    Admits (containsOnlyIdentifiers · allowed) :=
  admits_someCounted identifierPart_harmless

theorem isFontFamilyValue_admits : Admits isFontFamilyValue :=
  admits_someCounted fontFamilyPart_harmless

theorem isFontWeightValue_admits : Admits isFontWeightValue := by
  intro children h
  unfold isFontWeightValue at h
  split at h
  · next hsingle => exact singleNonWhitespaceChild_harmless hsingle trivial
  · next hsingle => exact singleNonWhitespaceChild_harmless hsingle trivial
  · cases h

theorem isLineHeightValue_admits : Admits isLineHeightValue := by
  intro children h
  unfold isLineHeightValue at h
  split at h
  · next hsingle => exact singleNonWhitespaceChild_harmless hsingle trivial
  · next hsingle => exact singleNonWhitespaceChild_harmless hsingle trivial
  · next hsingle => exact singleNonWhitespaceChild_harmless hsingle trivial
  · next hsingle => exact singleNonWhitespaceChild_harmless hsingle trivial
  · cases h

theorem isVerticalAlignValue_admits : Admits isVerticalAlignValue := by
  intro children h
  unfold isVerticalAlignValue at h
  split at h
  · next hsingle => exact singleNonWhitespaceChild_harmless hsingle trivial
  · next hsingle => exact singleNonWhitespaceChild_harmless hsingle trivial
  · next hsingle => exact singleNonWhitespaceChild_harmless hsingle trivial
  · next hsingle => exact singleNonWhitespaceChild_harmless hsingle trivial
  · cases h

/-- An allowed value passed a recognizer that admits harmless nodes only, and
    only the known properties have one. -/
theorem isAllowedValue_recognized {property : String} {children : List CssNode}
    (h : isAllowedValue property children = true) :
    property ∈ ALLOWED_PROPERTIES ∧
      ∃ recognizer, Admits recognizer ∧ recognizer children = true := by
  simp only [ALLOWED_PROPERTIES, List.mem_append]
  unfold isAllowedValue at h
  split at h
  · next hcolor => exact ⟨by simp [hcolor], _, isColorValue_admits, h⟩
  split at h
  · next hlength => exact ⟨by simp [hlength], _, isLengthValue_admits property, h⟩
  split at h
  · next hborder => exact ⟨by simp [hborder], _, isBorderValue_admits, h⟩
  split at h
  · next identifiers hlookup =>
    obtain ⟨before, after, heq, -⟩ := List.lookup_eq_some_iff.mp hlookup
    have hmem : property ∈ IDENTIFIER_PROPERTIES.map Prod.fst := by simp [heq]
    exact ⟨by simp [hmem], _, containsOnlyIdentifiers_admits identifiers, h⟩
  -- the properties that have a recognizer of their own
  split at h
  · next hname => exact ⟨by simp [hname, OTHER_PROPERTIES], _, isFontFamilyValue_admits, h⟩
  split at h
  · next hname => exact ⟨by simp [hname, OTHER_PROPERTIES], _, isFontWeightValue_admits, h⟩
  split at h
  · next hname => exact ⟨by simp [hname, OTHER_PROPERTIES], _, isLineHeightValue_admits, h⟩
  split at h
  · next hname => exact ⟨by simp [hname, OTHER_PROPERTIES], _, isVerticalAlignValue_admits, h⟩
  split at h
  · next hname =>
    have hname : property = "text-decoration" ∨ property = "text-decoration-line" := by
      simpa using hname
    refine ⟨?_, _, containsOnlyIdentifiers_admits TEXT_DECORATIONS, h⟩
    rcases hname with rfl | rfl <;> simp [OTHER_PROPERTIES]
  · cases h

theorem safeDeclaration_of_isAllowed {d : Declaration} (h : isAllowedDeclaration d = true) :
    SafeDeclaration d := by
  unfold isAllowedDeclaration at h
  split at h
  · next children hvalue =>
    simp only [Bool.and_eq_true, decide_eq_true_eq, Bool.not_eq_true'] at h
    obtain ⟨⟨himportant, hprefix⟩, hallowed⟩ := h
    obtain ⟨hproperty, recognizer, hadmits, hrecognized⟩ := isAllowedValue_recognized hallowed
    exact {
      property := hproperty
      unprefixed := hprefix
      important := himportant
      value := ⟨children, hvalue, fun child hmem _ hwithin =>
        (hadmits children hrecognized child hmem).within hwithin⟩ }
  · cases h

/-! #### The filter -/

/-- **A style is filtered node by node**, unless a node is met that may not
    stand there: a declaration that is not allowed leaves the others alone. -/
theorem acceptDeclarations_eq (children : List CssNode) :
    acceptDeclarations children =
      if children.all CssNode.isExpected then some (children.filterMap CssNode.kept) else none := by
  induction children with
  | nil => simp [acceptDeclarations]
  | cons node rest ih =>
    cases node with
    | declaration important property value =>
      simp only [acceptDeclarations, ih, List.all_cons, CssNode.isExpected, Bool.true_and,
        List.filterMap_cons, CssNode.kept]
      split <;> split <;> simp_all
    | _ =>
      simp only [acceptDeclarations, ih, List.all_cons, CssNode.isExpected, Bool.true_and,
        Bool.false_and, List.filterMap_cons, CssNode.kept, Bool.false_eq_true, reduceIte]

theorem kept_eq_some {node : CssNode} {d : Declaration} :
    node.kept = some d ↔ node = d.node ∧ isAllowedDeclaration d = true := by
  constructor
  · intro h
    cases node with
    | declaration important property value =>
      simp only [CssNode.kept, Option.ite_none_right_eq_some, Option.some.injEq] at h
      obtain ⟨hallowed, rfl⟩ := h
      exact ⟨rfl, hallowed⟩
    | _ => cases h
  · rintro ⟨rfl, hallowed⟩
    simp [Declaration.node, CssNode.kept, hallowed]

theorem mem_filterMap_kept {children : List CssNode} {d : Declaration} :
    d ∈ children.filterMap CssNode.kept ↔
      d.node ∈ children ∧ isAllowedDeclaration d = true := by
  simp only [List.mem_filterMap, kept_eq_some]
  constructor
  · rintro ⟨node, hmem, rfl, hallowed⟩
    exact ⟨hmem, hallowed⟩
  · rintro ⟨hmem, hallowed⟩
    exact ⟨d.node, hmem, rfl, hallowed⟩

variable [CssTree]

/-- **Only safe declarations pass the filter.** A style that parses into
    `children` is reduced to the declarations that are allowed, each of them
    safe; one that is not allowed is left out and the others stay. A node that
    is no declaration, white space or comment drops the style. -/
theorem sanitizeInlineStyle_admits (source : String) (children : List CssNode)
    (h : CssTree.parse source = some (.declarationList children)) :
    sanitizeInlineStyle (some source) =
        (if source.utf8ByteSize ≤ MAX_INLINE_STYLE_BYTES ∧
            ∀ node ∈ children, node.isExpected = true then
          styleText (children.filterMap CssNode.kept)
        else none) ∧
      (∀ d, d ∈ children.filterMap CssNode.kept ↔
        d.node ∈ children ∧ isAllowedDeclaration d = true) ∧
      (∀ d ∈ children.filterMap CssNode.kept, SafeDeclaration d) ∧
      ∀ before d after, children = before ++ Declaration.node d :: after →
        isAllowedDeclaration d = false →
        children.filterMap CssNode.kept = (before ++ after).filterMap CssNode.kept := by
  refine ⟨?_, fun _ => mem_filterMap_kept,
    fun d hd => safeDeclaration_of_isAllowed (mem_filterMap_kept.mp hd).2, ?_⟩
  · simp only [sanitizeInlineStyle, acceptedDeclarations, h, acceptDeclarations_eq,
      List.all_eq_true]
    -- the limit first, then the nodes
    by_cases hsize : source.utf8ByteSize ≤ MAX_INLINE_STYLE_BYTES
    · rw [if_neg (Nat.not_lt.mpr hsize)]
      by_cases hall : ∀ node ∈ children, node.isExpected = true
      · rw [if_pos hall, if_pos ⟨hsize, hall⟩]
        rfl
      · rw [if_neg hall, if_neg fun hand => hall hand.2]
        rfl
    · rw [if_pos (Nat.lt_of_not_le hsize), if_neg fun hand => hsize hand.1]
  · rintro before d after rfl hrefused
    have hnode : d.node.kept = none := by simp [Declaration.node, CssNode.kept, hrefused]
    simp [List.filterMap_append, hnode]

end safety

namespace Sample.Style

scoped instance sameCase : Unicode := ⟨id⟩

def redText : CssNode := .declaration .no "color" (.value [.identifier "red"])

def fetchedText : CssNode := .declaration .no "color" (.value [.url "x"])

def onePixel : CssNode := .declaration .no "width" (.value [.dimension "1" "px"])

/-- `css-tree` as far as one style goes. -/
scoped instance mixedStyle : CssTree where
  parse source :=
    if source = "color:red;color:url(x);width:1px" then
      some (.declarationList [redText, fetchedText, onePixel])
    else none
  generate
    | .declaration _ "color" (.value [.identifier name]) => "color:" ++ name
    | .declaration _ "width" (.value [.dimension value unit]) => "width:" ++ value ++ unit
    | _ => ""

theorem mixedStyle_admits :
    sanitizeInlineStyle (some "color:red;color:url(x);width:1px") = some "color:red;width:1px" ∧
      ∀ d ∈ [redText, fetchedText, onePixel].filterMap CssNode.kept, SafeDeclaration d := by
  have h := sanitizeInlineStyle_admits "color:red;color:url(x);width:1px"
    [redText, fetchedText, onePixel] rfl
  exact ⟨h.1.trans (by decide +kernel), h.2.2.1⟩

end Sample.Style

end Umail
