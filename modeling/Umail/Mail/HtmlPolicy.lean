import Umail.Framework.Record
import Umail.Mail.InlineStyle

/-! # Cleaning message HTML

  The cleaner of `apps/server/src/mail/html-policy.ts` on parsed trees. In
  mode `store` it reduces a received message to the elements, properties and
  styles of the safe language and keeps the source of a remote image as inert
  metadata; in mode `activate` it cleans the stored tree once more and turns
  that metadata into a live source.
-/

namespace Umail

/-! ### Trees -/

/-- A value of `Properties`. A number stands as the text that `String` gives,
    alone and in a list. -/
inductive PropertyValue where
  | undefined
  | null
  | boolean (b : Bool)
  | number (text : String)
  | string (text : String)
  | list (items : List String)
  deriving DecidableEq

abbrev Properties := Record PropertyValue

/-- `properties[name]` -/
def Properties.get (properties : Properties) (name : String) : PropertyValue :=
  (properties.get? name).getD .undefined

/-- A node of hast. `content` holds the children of the fragment of a
    `template` and is empty otherwise. -/
inductive Node where
  | text (value : String)
  | comment (value : String)
  | doctype
  | element (tagName : String) (properties : Properties) (children content : List Node)

structure Root where
  children : List Node

/-- Induction over a list of nodes and the children below it. -/
@[elab_as_elim]
theorem Node.list_induction {P : List Node → Prop} (nil : P [])
    (text : ∀ value rest, P rest → P (.text value :: rest))
    (comment : ∀ value rest, P rest → P (.comment value :: rest))
    (doctype : ∀ rest, P rest → P (.doctype :: rest))
    (element : ∀ tagName properties children content rest,
      P children → P content → P rest →
        P (.element tagName properties children content :: rest))
    (nodes : List Node) : P nodes :=
  @Node.rec_1 (fun node => ∀ rest, P rest → P (node :: rest)) P text comment doctype
    (fun tagName properties children content hchildren hcontent rest =>
      element tagName properties children content rest hchildren hcontent)
    nil (fun _ rest hnode hrest => hnode rest hrest) nodes

/-! ### Addresses -/

/-- The parts of a `URL` that the cleaner reads. -/
structure Url where
  href : String
  protocol : String
  username : String
  password : String
  origin : String

/-- `new URL(source)`, `none` where it throws. -/
class UrlParser where
  parse : String → Option Url

/-- A serialized address is read as the address that it came from. -/
class LawfulUrlParser [UrlParser] : Prop where
  parse_href : ∀ {source : String} {url : Url}, UrlParser.parse source = some url →
    UrlParser.parse url.href = some url

/-! ### Tables -/

/-- Kept, with only the properties allowed below. -/
def ALLOWED_ELEMENTS : List String :=
  ["a", "abbr", "address", "article", "aside", "b", "bdi", "bdo", "big", "blockquote", "br",
   "caption", "center", "cite", "code", "col", "colgroup", "dd", "del", "dfn", "div", "dl", "dt",
   "em", "figcaption", "figure", "footer", "h1", "h2", "h3", "h4", "h5", "h6", "header", "hr", "i",
   "img", "ins", "kbd", "li", "main", "mark", "nav", "nobr", "ol", "p", "pre", "q", "rp", "rt",
   "ruby", "s", "samp", "section", "small", "span", "strike", "strong", "sub", "sup", "table",
   "tbody", "td", "tfoot", "th", "thead", "time", "tr", "tt", "u", "ul", "var", "wbr"]

/-- Removed with their content. Every other element is unwrapped, so its
    content survives. -/
def DROPPED_ELEMENTS : List String :=
  ["iframe", "math", "noembed", "noframes", "noscript", "plaintext", "script", "select", "style",
   "svg", "template", "textarea", "title", "xmp"]

def GLOBAL_PROPERTIES : List String :=
  ["ariaHidden", "ariaLabel", "dir", "lang", "role", "title"]

/-- `ELEMENT_PROPERTIES.get(tagName)`, empty without an entry. -/
def ELEMENT_PROPERTIES : String → List String
  | "img" => ["alt", "height", "width"]
  | "li" => ["value"]
  | "ol" => ["reversed", "start", "type"]
  | "td" => ["colSpan", "headers", "rowSpan"]
  | "th" => ["colSpan", "headers", "rowSpan", "scope"]
  | "time" => ["dateTime"]
  | _ => []

def REMOTE_SOURCE_PROPERTY : String := "dataUmailRemoteSrc"

def LINK_REL_TOKENS : List String := ["noopener", "noreferrer", "nofollow"]

/-! ### Property values -/

def copyAllowedProperty (name : String) : PropertyValue → PropertyValue
  | .null => .undefined
  | .undefined => .undefined
  | .boolean false => .undefined
  | value =>
    if name = "reversed" then .boolean true
    else
      match value with
      | .list items => .string (" ".intercalate items)
      | value => value

def propertyText : PropertyValue → Option String
  | .null => none
  | .undefined => none
  | .boolean false => none
  | .boolean true => some ""
  | .list items => some (" ".intercalate items)
  | .number text => some text
  | .string text => some text

/-- The copy of a property in `cleanElement`, `none` where none is made. -/
def copiedProperty (tagName name : String) (value : PropertyValue) : Option PropertyValue :=
  if name ∉ GLOBAL_PROPERTIES ∧ name ∉ ELEMENT_PROPERTIES tagName then none
  else
    match copyAllowedProperty name value with
    | .undefined => none
    | copied => some copied

/-! ### The cleaner -/

inductive MailHtmlCleanContext where
  | store (hasRemoteImages : Bool)
  | activate (applicationOrigin : String)
  deriving DecidableEq

section cleaner
variable [Unicode] [CssTree] [UrlParser]

def canonicalHttpsUrl : Option String → Option Url
  | none => none
  | some source =>
    match UrlParser.parse source with
    | some url =>
      if url.protocol ≠ "https:" ∨ url.username ≠ "" ∨
        url.password ≠ "" then none else some url
    | none => none

def cleanAnchor (properties : Properties) (href : Option String) : Properties :=
  match canonicalHttpsUrl href with
  | none => properties
  | some url =>
    (((properties.set "href" (.string url.href)).set "target" (.string "_blank")).set
      "rel" (.list LINK_REL_TOKENS)).set "referrerPolicy" (.string "no-referrer")

def cleanImage (properties source : Properties) :
    MailHtmlCleanContext → Properties × MailHtmlCleanContext
  | .activate applicationOrigin =>
    match canonicalHttpsUrl (propertyText (source.get REMOTE_SOURCE_PROPERTY)) with
    | none => (properties, .activate applicationOrigin)
    | some remote =>
      let properties := properties.set REMOTE_SOURCE_PROPERTY (.string remote.href)
      if remote.origin = applicationOrigin then (properties, .activate applicationOrigin)
      else
        ((properties.set "src" (.string remote.href)).set "referrerPolicy" (.string "no-referrer"),
          .activate applicationOrigin)
  | .store hasRemoteImages =>
    let src := (propertyText (source.get "src")).map fun text => String.ofList (trim text.toList)
    match canonicalHttpsUrl src with
    | none => (properties, .store hasRemoteImages)
    | some remote =>
      (properties.set REMOTE_SOURCE_PROPERTY (.string remote.href), .store true)

/-- The properties of a kept element, before its children are cleaned. -/
def cleanProperties (tagName : String) (source : Properties) (context : MailHtmlCleanContext) :
    Properties × MailHtmlCleanContext :=
  let properties := Record.copyInto (copiedProperty tagName) source .empty
  let properties :=
    match sanitizeInlineStyle (propertyText (source.get "style")) with
    | some style => properties.set "style" (.string style)
    | none => properties
  let properties :=
    if tagName = "a" then cleanAnchor properties (propertyText (source.get "href"))
    else properties
  if tagName = "img" then cleanImage properties source context else (properties, context)

mutual

/-- One round of the loop in `cleanChildren`. -/
def cleanChild : Node → MailHtmlCleanContext → List Node × MailHtmlCleanContext
  | .text value, context => ([.text value], context)
  | .comment _, context => ([], context)
  | .doctype, context => ([], context)
  | .element tagName properties children _, context =>
    if tagName ∈ DROPPED_ELEMENTS then ([], context)
    else if tagName ∈ ALLOWED_ELEMENTS then
      -- `cleanElement`
      let (properties, context) := cleanProperties tagName properties context
      let (children, context) := cleanChildren children context
      ([.element tagName properties children []], context)
    else cleanChildren children context

def cleanChildren : List Node → MailHtmlCleanContext → List Node × MailHtmlCleanContext
  | [], context => ([], context)
  | child :: rest, context =>
    let (first, context) := cleanChild child context
    let (others, context) := cleanChildren rest context
    (first ++ others, context)

end

def cleanMailHtml (tree : Root) (context : MailHtmlCleanContext) : Root × MailHtmlCleanContext :=
  let (children, context) := cleanChildren tree.children context
  (⟨children⟩, context)

end cleaner

/-! ### What is written on an element -/

/-- A context without the flag that it collects. -/
inductive Mode where
  | store
  | activate (applicationOrigin : String)
  deriving DecidableEq

def MailHtmlCleanContext.mode : MailHtmlCleanContext → Mode
  | .store _ => .store
  | .activate applicationOrigin => .activate applicationOrigin

/-- The properties that the cleaner writes itself. None of them is copied. -/
def WRITTEN_PROPERTIES : List String :=
  ["style", "href", "target", "rel", "referrerPolicy", REMOTE_SOURCE_PROPERTY, "src"]

def styleEntries : Option String → List (String × PropertyValue)
  | none => []
  | some style => [("style", .string style)]

def anchorEntries : Option Url → List (String × PropertyValue)
  | none => []
  | some url =>
    [("href", .string url.href), ("target", .string "_blank"), ("rel", .list LINK_REL_TOKENS),
     ("referrerPolicy", .string "no-referrer")]

def imageEntries : Mode → Option Url → List (String × PropertyValue)
  | _, none => []
  | .store, some remote => [(REMOTE_SOURCE_PROPERTY, .string remote.href)]
  | .activate applicationOrigin, some remote =>
    (REMOTE_SOURCE_PROPERTY, .string remote.href) ::
      if remote.origin = applicationOrigin then []
      else [("src", .string remote.href), ("referrerPolicy", .string "no-referrer")]

theorem written_not_copied {name : String} (h : name ∈ WRITTEN_PROPERTIES) (tagName : String) :
    name ∉ GLOBAL_PROPERTIES ∧ name ∉ ELEMENT_PROPERTIES tagName := by
  have hglobal : ∀ name ∈ WRITTEN_PROPERTIES, name ∉ GLOBAL_PROPERTIES := by decide
  refine ⟨hglobal name h, ?_⟩
  unfold ELEMENT_PROPERTIES
  split <;> revert name <;> decide

theorem written_of_anchor {name : String}
    (h : name ∈ ["href", "target", "rel", "referrerPolicy"]) :
    name ∈ WRITTEN_PROPERTIES := by
  have hall : ∀ name ∈ ["href", "target", "rel", "referrerPolicy"],
      name ∈ WRITTEN_PROPERTIES := by decide
  exact hall name h

theorem written_of_image {name : String}
    (h : name ∈ [REMOTE_SOURCE_PROPERTY, "src", "referrerPolicy"]) :
    name ∈ WRITTEN_PROPERTIES := by
  have hall : ∀ name ∈ [REMOTE_SOURCE_PROPERTY, "src", "referrerPolicy"],
      name ∈ WRITTEN_PROPERTIES := by decide
  exact hall name h

theorem copiedProperty_allowed {tagName name : String} {value value' : PropertyValue}
    (h : copiedProperty tagName name value = some value') :
    name ∈ GLOBAL_PROPERTIES ∨ name ∈ ELEMENT_PROPERTIES tagName := by
  unfold copiedProperty at h
  split at h
  · cases h
  · next hallowed => tauto

theorem copiedProperty_written {tagName name : String} (h : name ∈ WRITTEN_PROPERTIES)
    (value : PropertyValue) : copiedProperty tagName name value = none :=
  if_pos (written_not_copied h tagName)

theorem styleEntries_names (style : Option String) :
    ∀ entry ∈ styleEntries style, entry.1 = "style" := by
  cases style <;> simp [styleEntries]

theorem anchorEntries_names (url : Option Url) :
    ∀ entry ∈ anchorEntries url, entry.1 ∈ ["href", "target", "rel", "referrerPolicy"] := by
  cases url <;> simp [anchorEntries]

theorem imageEntries_names (mode : Mode) (url : Option Url) :
    ∀ entry ∈ imageEntries mode url,
      entry.1 ∈ [REMOTE_SOURCE_PROPERTY, "src", "referrerPolicy"] := by
  cases url with
  | none => simp [imageEntries]
  | some remote =>
    cases mode with
    | store => simp [imageEntries]
    | activate origin =>
      simp only [imageEntries]
      split <;> simp

section entries
variable [UrlParser]

/-- The address of an image, where either mode finds it. -/
def remoteSource (source : Properties) : Mode → Option Url
  | .store =>
    canonicalHttpsUrl
      ((propertyText (source.get "src")).map fun text => String.ofList (trim text.toList))
  | .activate _ => canonicalHttpsUrl (propertyText (source.get REMOTE_SOURCE_PROPERTY))

theorem cleanAnchor_eq (properties : Properties) (href : Option String) :
    cleanAnchor properties href = properties.setAll (anchorEntries (canonicalHttpsUrl href)) := by
  unfold cleanAnchor
  cases canonicalHttpsUrl href <;> rfl

theorem cleanImage_eq (properties source : Properties) (context : MailHtmlCleanContext) :
    (cleanImage properties source context).1 =
      properties.setAll (imageEntries context.mode (remoteSource source context.mode)) := by
  cases context with
  | store hasRemoteImages =>
    simp only [cleanImage, MailHtmlCleanContext.mode, remoteSource]
    split
    · next hnone => rw [hnone]; rfl
    · next remote hsome => rw [hsome]; rfl
  | activate applicationOrigin =>
    simp only [cleanImage, MailHtmlCleanContext.mode, remoteSource]
    split
    · next hnone => rw [hnone]; rfl
    · next remote hsome =>
      rw [hsome]
      by_cases horigin : remote.origin = applicationOrigin
      · simp [imageEntries, horigin, Record.setAll]
      · simp [imageEntries, horigin, Record.setAll]

variable [Unicode] [CssTree]

/-- What is assigned to an element after the copies. -/
def writtenEntries (tagName : String) (source : Properties) (mode : Mode) :
    List (String × PropertyValue) :=
  styleEntries (sanitizeInlineStyle (propertyText (source.get "style"))) ++
    ((if tagName = "a" then
        anchorEntries (canonicalHttpsUrl (propertyText (source.get "href")))
      else []) ++
      if tagName = "img" then imageEntries mode (remoteSource source mode) else [])

theorem mem_writtenEntries {tagName : String} {source : Properties} {mode : Mode}
    {entry : String × PropertyValue} :
    entry ∈ writtenEntries tagName source mode ↔
      entry ∈ styleEntries (sanitizeInlineStyle (propertyText (source.get "style"))) ∨
      (tagName = "a" ∧
        entry ∈ anchorEntries (canonicalHttpsUrl (propertyText (source.get "href")))) ∨
      (tagName = "img" ∧ entry ∈ imageEntries mode (remoteSource source mode)) := by
  by_cases ha : tagName = "a" <;> by_cases himg : tagName = "img" <;>
    simp [writtenEntries, ha, himg]

theorem writtenEntries_names {tagName : String} {source : Properties} {mode : Mode}
    {entry : String × PropertyValue} (h : entry ∈ writtenEntries tagName source mode) :
    entry.1 ∈ WRITTEN_PROPERTIES := by
  rcases mem_writtenEntries.mp h with hstyle | ⟨-, hanchor⟩ | ⟨-, himage⟩
  · rw [styleEntries_names _ entry hstyle]
    decide
  · exact written_of_anchor (anchorEntries_names _ entry hanchor)
  · exact written_of_image (imageEntries_names _ _ entry himage)

theorem writtenEntries_nodup (tagName : String) (source : Properties) (mode : Mode) :
    ((writtenEntries tagName source mode).map Prod.fst).Nodup := by
  have hanchor : ∀ url, ((anchorEntries url).map Prod.fst).Nodup := by
    intro url
    cases url <;> simp [anchorEntries]
  have himage : ∀ url, ((imageEntries mode url).map Prod.fst).Nodup := by
    intro url
    cases url with
    | none => simp [imageEntries]
    | some remote =>
      cases mode with
      | store => simp [imageEntries]
      | activate origin =>
        simp only [imageEntries]
        split <;> simp [REMOTE_SOURCE_PROPERTY]
  have hstyle : ∀ (style : Option String) (others : List (String × PropertyValue)),
      (others.map Prod.fst).Nodup → "style" ∉ others.map Prod.fst →
      ((styleEntries style ++ others).map Prod.fst).Nodup := by
    intro style others hnodup hfresh
    cases style with
    | none => simpa [styleEntries] using hnodup
    | some text => exact List.nodup_cons.mpr ⟨hfresh, hnodup⟩
  -- no element is an anchor and an image at once
  refine hstyle _ _ ?_ ?_
  · by_cases ha : tagName = "a"
    · simpa [ha] using hanchor _
    · by_cases himg : tagName = "img"
      · simpa [himg] using himage _
      · simp [ha, himg]
  · -- neither an anchor nor an image has a style among its own names
    intro hmem
    obtain ⟨entry, hentry, heq⟩ := List.mem_map.mp hmem
    rcases List.mem_append.mp hentry with hentry | hentry
    · split at hentry
      · have hname := anchorEntries_names _ entry hentry
        rw [heq] at hname
        revert hname
        decide
      · cases hentry
    · split at hentry
      · have hname := imageEntries_names _ _ entry hentry
        rw [heq] at hname
        revert hname
        decide
      · cases hentry

theorem cleanProperties_eq (tagName : String) (source : Properties)
    (context : MailHtmlCleanContext) :
    (cleanProperties tagName source context).1 =
      Record.empty.setAll (Record.copied (copiedProperty tagName) source.entries ++
        writtenEntries tagName source context.mode) := by
  have hstyle : ∀ (properties : Properties) (style : Option String),
      (match style with
        | some style => properties.set "style" (.string style)
        | none => properties) = properties.setAll (styleEntries style) := by
    intro properties style
    cases style <;> rfl
  simp only [cleanProperties, writtenEntries, Record.setAll_append, Record.copyInto_eq, hstyle]
  by_cases ha : tagName = "a"
  · simp [ha, cleanAnchor_eq, Record.setAll]
  · by_cases himg : tagName = "img"
    · simp [himg, cleanImage_eq, Record.setAll]
    · simp [ha, himg, Record.setAll]

/-- **The properties of a cleaned element**: the copies, then what the cleaner
    writes. -/
theorem cleanProperties_entries (tagName : String) (source : Properties)
    (context : MailHtmlCleanContext) :
    (cleanProperties tagName source context).1.entries =
      Record.copied (copiedProperty tagName) source.entries ++
        writtenEntries tagName source context.mode := by
  rw [cleanProperties_eq, Record.setAll_entries]
  · rfl
  simp only [Record.empty, List.nil_append, List.map_append, List.nodup_append]
  refine ⟨Record.copied_nodup _ source.nodup, writtenEntries_nodup _ _ _, ?_⟩
  -- a copied name is allowed, and no written one is
  rintro name hcopied _ hwritten rfl
  obtain ⟨⟨_, value⟩, hmem, rfl⟩ := List.mem_map.mp hcopied
  obtain ⟨entry, hentry, heq⟩ := List.mem_map.mp hwritten
  obtain ⟨old, -, hcopy⟩ := Record.mem_copied.mp hmem
  have hnone : copiedProperty tagName _ old = none :=
    copiedProperty_written (heq ▸ writtenEntries_names hentry) old
  rw [hcopy] at hnone
  cases hnone

end entries

/-! ### The safe language -/

section language
variable [UrlParser]

/-- An `https` address without credentials. -/
structure IsHttps (text : String) (url : Url) : Prop where
  parsed : UrlParser.parse text = some url
  protocol : url.protocol = "https:"
  username : url.username = ""
  password : url.password = ""

variable [Unicode] [CssTree]

/-- The properties that a safe element may carry. -/
structure SafeProperties (mode : Mode) (tagName : String) (properties : Properties) : Prop where
  /-- Every property is allowed for the element, a sanitized style, or one of
      an anchor or an image. -/
  known : ∀ name value, properties.get? name = some value →
    name ∈ GLOBAL_PROPERTIES ∨ name ∈ ELEMENT_PROPERTIES tagName ∨
    (name = "style" ∧ ∃ source style, sanitizeInlineStyle source = some style ∧
      value = .string style) ∨
    (tagName = "a" ∧ name ∈ ["href", "target", "rel", "referrerPolicy"]) ∨
    (tagName = "img" ∧ name ∈ [REMOTE_SOURCE_PROPERTY, "src", "referrerPolicy"])
  /-- An anchor has no address, or a safe one that opens apart. -/
  anchor : tagName = "a" → properties.get? "href" = none ∨
    ∃ text url, IsHttps text url ∧ properties.get? "href" = some (.string text) ∧
      properties.get? "target" = some (.string "_blank") ∧
      properties.get? "rel" = some (.list LINK_REL_TOKENS) ∧
      properties.get? "referrerPolicy" = some (.string "no-referrer")
  /-- A stored image fetches nothing. -/
  stored : mode = .store → tagName = "img" → properties.get? "src" = none
  /-- An activated image is fetched from elsewhere. -/
  activated : ∀ applicationOrigin value, mode = .activate applicationOrigin →
    tagName = "img" →
    properties.get? "src" = some value →
    ∃ text url, value = .string text ∧ IsHttps text url ∧ url.origin ≠ applicationOrigin

/-- A node of the safe language. -/
inductive SafeNode (mode : Mode) : Node → Prop where
  | text (value : String) : SafeNode mode (.text value)
  | element {tagName : String} {properties : Properties} {children : List Node}
      (allowed : tagName ∈ ALLOWED_ELEMENTS ∧ tagName ∉ DROPPED_ELEMENTS)
      (safe : SafeProperties mode tagName properties)
      (below : ∀ child ∈ children, SafeNode mode child) :
      SafeNode mode (.element tagName properties children [])

mutual

/-- All text below a node, in order. -/
def Node.texts : Node → List String
  | .text value => [value]
  | .comment _ => []
  | .doctype => []
  | .element _ _ children content => textsOf children ++ textsOf content

def textsOf : List Node → List String
  | [] => []
  | node :: rest => node.texts ++ textsOf rest

end

mutual

/-- The text below a node that is outside the dropped elements, in order. -/
def Node.keptTexts : Node → List String
  | .text value => [value]
  | .comment _ => []
  | .doctype => []
  | .element tagName _ children _ =>
    if tagName ∈ DROPPED_ELEMENTS then [] else keptTextsOf children

def keptTextsOf : List Node → List String
  | [] => []
  | node :: rest => node.keptTexts ++ keptTextsOf rest

end

/-! #### Properties -/

omit [Unicode] [CssTree] in
theorem canonicalHttpsUrl_some {source : Option String} {url : Url}
    (h : canonicalHttpsUrl source = some url) : ∃ text, source = some text ∧
      IsHttps text url := by
  cases source with
  | none => cases h
  | some text =>
    simp only [canonicalHttpsUrl] at h
    split at h
    · next found hparse =>
      split at h
      · cases h
      · next hsafe =>
        obtain rfl := Option.some.inj h
        simp only [ne_eq, not_or, not_not] at hsafe
        exact ⟨text, rfl, hparse, hsafe.1, hsafe.2.1, hsafe.2.2⟩
    · cases h

omit [Unicode] [CssTree] in
theorem canonicalHttpsUrl_of_isHttps {text : String} {url : Url} (h : IsHttps text url) :
    canonicalHttpsUrl (some text) = some url := by
  simp [canonicalHttpsUrl, h.parsed, h.protocol, h.username, h.password]

omit [Unicode] [CssTree] in
/-- An address that was written out is read again as itself. -/
theorem isHttps_href [LawfulUrlParser] {source : Option String} {url : Url}
    (h : canonicalHttpsUrl source = some url) : IsHttps url.href url := by
  obtain ⟨text, -, hhttps⟩ := canonicalHttpsUrl_some h
  exact { hhttps with parsed := LawfulUrlParser.parse_href hhttps.parsed }

theorem mem_cleaned {tagName name : String} {source : Properties}
    {context : MailHtmlCleanContext} {value : PropertyValue} :
    (cleanProperties tagName source context).1.get? name = some value ↔
      (∃ old, (name, old) ∈ source.entries ∧ copiedProperty tagName name old = some value) ∨
        (name, value) ∈ writtenEntries tagName source context.mode := by
  rw [Record.get?_eq_some, cleanProperties_entries, List.mem_append, Record.mem_copied]

/-- A written property is never a copy. -/
theorem get?_written {tagName name : String} (hname : name ∈ WRITTEN_PROPERTIES)
    {source : Properties} {context : MailHtmlCleanContext} {value : PropertyValue} :
    (cleanProperties tagName source context).1.get? name = some value ↔
      (name, value) ∈ writtenEntries tagName source context.mode := by
  rw [mem_cleaned, or_iff_right]
  rintro ⟨old, -, hcopied⟩
  rw [copiedProperty_written hname] at hcopied
  cases hcopied

theorem cleanProperties_known {tagName : String} {source : Properties}
    {context : MailHtmlCleanContext} {name : String} {value : PropertyValue}
    (h : (cleanProperties tagName source context).1.get? name = some value) :
    name ∈ GLOBAL_PROPERTIES ∨ name ∈ ELEMENT_PROPERTIES tagName ∨
    (name = "style" ∧ ∃ source style, sanitizeInlineStyle source = some style ∧
      value = .string style) ∨
    (tagName = "a" ∧ name ∈ ["href", "target", "rel", "referrerPolicy"]) ∨
    (tagName = "img" ∧ name ∈ [REMOTE_SOURCE_PROPERTY, "src", "referrerPolicy"]) := by
  rcases mem_cleaned.mp h with ⟨old, -, hcopied⟩ | hwritten
  · rcases copiedProperty_allowed hcopied with hglobal | helement
    · exact .inl hglobal
    · exact .inr (.inl helement)
  · -- what is not copied is written
    rcases mem_writtenEntries.mp hwritten with hstyle | ⟨ha, hanchor⟩ | ⟨himg, himage⟩
    · refine .inr (.inr (.inl ?_))
      cases hstyled : sanitizeInlineStyle (propertyText (source.get "style")) with
      | none => simp [hstyled, styleEntries] at hstyle
      | some style =>
        obtain ⟨rfl, rfl⟩ : name = "style" ∧ value = .string style := by
          simpa [hstyled, styleEntries] using hstyle
        exact ⟨rfl, _, style, hstyled, rfl⟩
    · exact .inr (.inr (.inr (.inl ⟨ha, anchorEntries_names _ _ hanchor⟩)))
    · exact .inr (.inr (.inr (.inr ⟨himg, imageEntries_names _ _ _ himage⟩)))

theorem get?_style {tagName : String} {source : Properties} {context : MailHtmlCleanContext}
    {value : PropertyValue} :
    (cleanProperties tagName source context).1.get? "style" = some value ↔
      ∃ style, sanitizeInlineStyle (propertyText (source.get "style")) = some style ∧
        value = .string style := by
  rw [get?_written (by decide), mem_writtenEntries]
  constructor
  · rintro (hstyle | ⟨-, hanchor⟩ | ⟨-, himage⟩)
    · cases hstyled : sanitizeInlineStyle (propertyText (source.get "style")) with
      | none => simp [hstyled, styleEntries] at hstyle
      | some style => exact ⟨style, rfl, by simpa [hstyled, styleEntries] using hstyle⟩
    · exact absurd (anchorEntries_names _ _ hanchor) (by simp)
    · exact absurd (imageEntries_names _ _ _ himage) (by simp [REMOTE_SOURCE_PROPERTY])
  · rintro ⟨style, hstyled, rfl⟩
    simp [hstyled, styleEntries]

theorem get?_anchor {source : Properties} {context : MailHtmlCleanContext} {name : String}
    {value : PropertyValue} (hname : name ∈ ["href", "target", "rel", "referrerPolicy"]) :
    (cleanProperties "a" source context).1.get? name = some value ↔
      (name, value) ∈ anchorEntries (canonicalHttpsUrl (propertyText (source.get "href"))) := by
  rw [get?_written (written_of_anchor hname), mem_writtenEntries]
  constructor
  · rintro (hstyle | ⟨-, hanchor⟩ | ⟨himg, -⟩)
    · obtain rfl : name = "style" := styleEntries_names _ _ hstyle
      exact absurd hname (by simp)
    · exact hanchor
    · exact absurd himg (by decide)
  · exact fun hanchor => .inr (.inl ⟨rfl, hanchor⟩)

theorem get?_image {source : Properties} {context : MailHtmlCleanContext} {name : String}
    {value : PropertyValue} (hname : name ∈ [REMOTE_SOURCE_PROPERTY, "src", "referrerPolicy"]) :
    (cleanProperties "img" source context).1.get? name = some value ↔
      (name, value) ∈ imageEntries context.mode (remoteSource source context.mode) := by
  rw [get?_written (written_of_image hname), mem_writtenEntries]
  constructor
  · rintro (hstyle | ⟨ha, -⟩ | ⟨-, himage⟩)
    · obtain rfl : name = "style" := styleEntries_names _ _ hstyle
      exact absurd hname (by simp [REMOTE_SOURCE_PROPERTY])
    · exact absurd ha (by decide)
    · exact himage
  · exact fun himage => .inr (.inr ⟨rfl, himage⟩)

omit [Unicode] [CssTree] [UrlParser] in
/-- An image has a source in mode `activate` only, and from elsewhere. -/
theorem src_mem_imageEntries {mode : Mode} {remote : Option Url} {value : PropertyValue}
    (h : ("src", value) ∈ imageEntries mode remote) :
    ∃ applicationOrigin url, mode = .activate applicationOrigin ∧ remote = some url ∧
      value = .string url.href ∧ url.origin ≠ applicationOrigin := by
  cases remote with
  | none => simp [imageEntries] at h
  | some url =>
    cases mode with
    | store => simp [imageEntries, REMOTE_SOURCE_PROPERTY] at h
    | activate applicationOrigin =>
      by_cases horigin : url.origin = applicationOrigin
      · simp [imageEntries, horigin, REMOTE_SOURCE_PROPERTY] at h
      · have hvalue : value = .string url.href := by
          simpa [imageEntries, horigin, REMOTE_SOURCE_PROPERTY] using h
        exact ⟨applicationOrigin, url, rfl, rfl, hvalue, horigin⟩

theorem cleanProperties_safe [LawfulUrlParser] (tagName : String) (source : Properties)
    (context : MailHtmlCleanContext) :
    SafeProperties context.mode tagName (cleanProperties tagName source context).1 where
  known _ _ := cleanProperties_known
  anchor := by
    rintro rfl
    cases hurl : canonicalHttpsUrl (propertyText (source.get "href")) with
    | none =>
      left
      rw [Option.eq_none_iff_forall_not_mem]
      intro value hvalue
      have hmem := (get?_anchor (by decide)).mp hvalue
      simp [hurl, anchorEntries] at hmem
    | some url =>
      refine .inr ⟨url.href, url, isHttps_href hurl, ?_, ?_, ?_, ?_⟩ <;>
        rw [get?_anchor (by decide), hurl] <;> simp [anchorEntries]
  stored := by
    rintro hmode rfl
    rw [Option.eq_none_iff_forall_not_mem]
    intro value hvalue
    -- a source is written by an activation only
    obtain ⟨_, _, hactivate, -⟩ := src_mem_imageEntries ((get?_image (by decide)).mp hvalue)
    rw [hmode] at hactivate
    cases hactivate
  activated := by
    rintro applicationOrigin value hmode rfl hvalue
    obtain ⟨_, url, hactivate, hremote, rfl, horigin⟩ :=
      src_mem_imageEntries ((get?_image (by decide)).mp hvalue)
    obtain rfl : _ = applicationOrigin := by simpa [hmode] using hactivate.symm
    rw [hmode] at hremote
    exact ⟨url.href, url, rfl, isHttps_href hremote, horigin⟩

/-! #### The loop -/

omit [Unicode] [CssTree] in
theorem cleanImage_context (properties source : Properties) (context : MailHtmlCleanContext) :
    (cleanImage properties source context).2 =
      match context with
      | .store hasRemoteImages =>
        .store (hasRemoteImages || (remoteSource source .store).isSome)
      | .activate applicationOrigin => .activate applicationOrigin := by
  cases context with
  | store hasRemoteImages =>
    simp only [cleanImage, remoteSource]
    split
    · next hnone => rw [hnone]; simp
    · next remote hsome => rw [hsome]; simp
  | activate applicationOrigin =>
    simp only [cleanImage]
    split
    · rfl
    · split <;> rfl

theorem cleanProperties_context (tagName : String) (source : Properties)
    (context : MailHtmlCleanContext) :
    (cleanProperties tagName source context).2 =
      match context with
      | .store hasRemoteImages =>
        .store (hasRemoteImages || (tagName = "img" && (remoteSource source .store).isSome))
      | .activate applicationOrigin => .activate applicationOrigin := by
  simp only [cleanProperties]
  by_cases himg : tagName = "img"
  · rw [if_pos himg, cleanImage_context]
    cases context <;> simp [himg]
  · rw [if_neg himg]
    cases context <;> simp [himg]

theorem cleanProperties_mode (tagName : String) (source : Properties)
    (context : MailHtmlCleanContext) :
    (cleanProperties tagName source context).2.mode = context.mode := by
  rw [cleanProperties_context]
  cases context <;> rfl

theorem cleanChildren_text (value : String) (rest : List Node) (context : MailHtmlCleanContext) :
    cleanChildren (.text value :: rest) context =
      (.text value :: (cleanChildren rest context).1, (cleanChildren rest context).2) := rfl

theorem cleanChildren_comment (value : String) (rest : List Node)
    (context : MailHtmlCleanContext) :
    cleanChildren (.comment value :: rest) context = cleanChildren rest context := rfl

theorem cleanChildren_doctype (rest : List Node) (context : MailHtmlCleanContext) :
    cleanChildren (.doctype :: rest) context = cleanChildren rest context := rfl

theorem cleanChildren_dropped {tagName : String} (h : tagName ∈ DROPPED_ELEMENTS)
    (properties : Properties) (children content rest : List Node)
    (context : MailHtmlCleanContext) :
    cleanChildren (.element tagName properties children content :: rest) context =
      cleanChildren rest context := by
  simp [cleanChildren, cleanChild, h]

theorem cleanChildren_kept {tagName : String} (hdropped : tagName ∉ DROPPED_ELEMENTS)
    (hallowed : tagName ∈ ALLOWED_ELEMENTS) (properties : Properties)
    (children content rest : List Node) (context : MailHtmlCleanContext) :
    cleanChildren (.element tagName properties children content :: rest) context =
      let own := cleanProperties tagName properties context
      let below := cleanChildren children own.2
      let others := cleanChildren rest below.2
      (.element tagName own.1 below.1 [] :: others.1, others.2) := by
  simp [cleanChildren, cleanChild, hdropped, hallowed]

theorem cleanChildren_unwrapped {tagName : String} (hdropped : tagName ∉ DROPPED_ELEMENTS)
    (hallowed : tagName ∉ ALLOWED_ELEMENTS) (properties : Properties)
    (children content rest : List Node) (context : MailHtmlCleanContext) :
    cleanChildren (.element tagName properties children content :: rest) context =
      let below := cleanChildren children context
      let others := cleanChildren rest below.2
      (below.1 ++ others.1, others.2) := by
  simp [cleanChildren, cleanChild, hdropped, hallowed]

theorem cleanChildren_mode (nodes : List Node) (context : MailHtmlCleanContext) :
    (cleanChildren nodes context).2.mode = context.mode := by
  induction nodes using Node.list_induction generalizing context with
  | nil => rfl
  | text value rest ih => exact ih context
  | comment value rest ih => exact ih context
  | doctype rest ih => exact ih context
  | element tagName properties children content rest ihchildren _ ihrest =>
    by_cases hdropped : tagName ∈ DROPPED_ELEMENTS
    · rw [cleanChildren_dropped hdropped, ihrest]
    by_cases hallowed : tagName ∈ ALLOWED_ELEMENTS
    · rw [cleanChildren_kept hdropped hallowed]
      simp only [ihrest, ihchildren, cleanProperties_mode]
    · rw [cleanChildren_unwrapped hdropped hallowed]
      simp only [ihrest, ihchildren]

/-! #### The cleaned tree -/

theorem cleanChildren_safe [LawfulUrlParser] (nodes : List Node)
    (context : MailHtmlCleanContext) :
    ∀ node ∈ (cleanChildren nodes context).1, SafeNode context.mode node := by
  induction nodes using Node.list_induction generalizing context with
  | nil => exact List.forall_mem_nil _
  | text value rest ih =>
    rw [cleanChildren_text]
    exact List.forall_mem_cons.mpr ⟨.text value, ih context⟩
  | comment value rest ih => exact ih context
  | doctype rest ih => exact ih context
  | element tagName properties children content rest ihchildren _ ihrest =>
    by_cases hdropped : tagName ∈ DROPPED_ELEMENTS
    · rw [cleanChildren_dropped hdropped]
      exact ihrest context
    by_cases hallowed : tagName ∈ ALLOWED_ELEMENTS
    · rw [cleanChildren_kept hdropped hallowed]
      have hmode := cleanProperties_mode tagName properties context
      -- the passes below and beside the element run in the same mode
      have hbelow := ihchildren (cleanProperties tagName properties context).2
      have hrest := ihrest
        (cleanChildren children (cleanProperties tagName properties context).2).2
      rw [hmode] at hbelow
      rw [cleanChildren_mode, hmode] at hrest
      exact List.forall_mem_cons.mpr
        ⟨.element ⟨hallowed, hdropped⟩ (cleanProperties_safe tagName properties context)
          hbelow,
          hrest⟩
    · rw [cleanChildren_unwrapped hdropped hallowed]
      have hrest := ihrest (cleanChildren children context).2
      rw [cleanChildren_mode] at hrest
      exact List.forall_mem_append.mpr ⟨ihchildren context, hrest⟩

omit [Unicode] [CssTree] [UrlParser] in
theorem textsOf_append (nodes more : List Node) :
    textsOf (nodes ++ more) = textsOf nodes ++ textsOf more := by
  induction nodes with
  | nil => rfl
  | cons node rest ih => rw [List.cons_append, textsOf, textsOf, ih, List.append_assoc]

theorem cleanChildren_texts (nodes : List Node) (context : MailHtmlCleanContext) :
    textsOf (cleanChildren nodes context).1 = keptTextsOf nodes := by
  induction nodes using Node.list_induction generalizing context with
  | nil => rfl
  | text value rest ih => rw [cleanChildren_text, textsOf, ih, keptTextsOf]; rfl
  | comment value rest ih => exact ih context
  | doctype rest ih => exact ih context
  | element tagName properties children content rest ihchildren _ ihrest =>
    rw [keptTextsOf, Node.keptTexts]
    by_cases hdropped : tagName ∈ DROPPED_ELEMENTS
    · rw [cleanChildren_dropped hdropped, ihrest, if_pos hdropped, List.nil_append]
    rw [if_neg hdropped]
    by_cases hallowed : tagName ∈ ALLOWED_ELEMENTS
    · rw [cleanChildren_kept hdropped hallowed]
      simp only [textsOf, Node.texts, List.append_nil, ihchildren, ihrest]
    · rw [cleanChildren_unwrapped hdropped hallowed]
      simp only [textsOf_append, ihchildren, ihrest]

/-- **A cleaned tree is in the safe language**, in both modes, and keeps the
    text outside the dropped elements in its order. -/
theorem cleanMailHtml_safe [LawfulUrlParser] (tree : Root) (context : MailHtmlCleanContext) :
    (∀ node ∈ (cleanMailHtml tree context).1.children, SafeNode context.mode node) ∧
      textsOf (cleanMailHtml tree context).1.children = keptTextsOf tree.children :=
  ⟨cleanChildren_safe tree.children context, cleanChildren_texts tree.children context⟩

end language

namespace Sample.Html

open Sample.Style

def picture : Url where
  href := "https://pics.example/a.png"
  protocol := "https:"
  username := ""
  password := ""
  origin := "https://pics.example"

/-- `URL` as far as one address goes. -/
scoped instance oneAddress : UrlParser where
  parse source := if source = picture.href then some picture else none

scoped instance oneAddress_lawful : LawfulUrlParser where
  parse_href := by
    intro source url h
    obtain ⟨-, rfl⟩ : source = picture.href ∧ picture = url := by
      simpa [UrlParser.parse] using h
    rfl

def page : Root where
  children :=
    [.doctype, .comment "head",
     .element "script" .empty [.text "run()"] [],
     .element "font" .empty
       [.text "Look", .element "a" (Record.empty.set "href" (.string picture.href))
         [.text "here"] []] [],
     .element "img" (Record.empty.set REMOTE_SOURCE_PROPERTY (.string picture.href)) [] []]

theorem page_cleaned :
    (∀ node ∈ (cleanMailHtml page (.activate "https://mail.example")).1.children,
      SafeNode (.activate "https://mail.example") node) ∧
    textsOf (cleanMailHtml page (.activate "https://mail.example")).1.children =
      ["Look", "here"] := by
  have h := cleanMailHtml_safe page (.activate "https://mail.example")
  exact ⟨h.1, h.2.trans (by decide +kernel)⟩

end Sample.Html

end Umail
