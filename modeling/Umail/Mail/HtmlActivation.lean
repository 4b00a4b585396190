import Umail.Mail.HtmlPolicy

/-! # Activating stored HTML

  A message is cleaned twice: its tree is stored by mode `store`, and the
  stored tree passes the cleaner once more in mode `activate`. The second pass
  is meant to change remote images and nothing else. It does, as long as every
  style still fits the limit after it was written out again.
-/

namespace Umail

/-- What is written for declarations that were accepted is parsed into these
    declarations. -/
class LawfulCssTree [Unicode] [CssTree] : Prop where
  parse_written : ∀ {source : String} {accepted : List Declaration},
    acceptedDeclarations source = some accepted → accepted ≠ [] →
    CssTree.parse (";".intercalate (accepted.map fun d => CssTree.generate d.node)) =
      some (.declarationList (accepted.map Declaration.node))

/-! ### The intended change -/

section intended
variable [UrlParser]

/-- The properties of an element after its activation: an image whose stored
    source is elsewhere gains a live one. -/
def activatedProperties (applicationOrigin tagName : String) (properties : Properties) :
    Properties :=
  if tagName = "img" then
    match properties.get? REMOTE_SOURCE_PROPERTY with
    | some (.string text) =>
      match UrlParser.parse text with
      | some remote =>
        if remote.origin = applicationOrigin then properties
        else
          (properties.set "src" (.string text)).set "referrerPolicy" (.string "no-referrer")
      | none => properties
    | _ => properties
  else properties

mutual

def activatedNode (applicationOrigin : String) : Node → Node
  | .text value => .text value
  | .comment value => .comment value
  | .doctype => .doctype
  | .element tagName properties children content =>
    .element tagName (activatedProperties applicationOrigin tagName properties)
      (activatedNodes applicationOrigin children) content

def activatedNodes (applicationOrigin : String) : List Node → List Node
  | [] => []
  | node :: rest =>
    activatedNode applicationOrigin node :: activatedNodes applicationOrigin rest

end

end intended

mutual

/-- Some image at or below the node carries a remote source. -/
def Node.hasRemoteImage : Node → Bool
  | .text _ => false
  | .comment _ => false
  | .doctype => false
  | .element tagName properties children content =>
    (tagName = "img" && (properties.get? REMOTE_SOURCE_PROPERTY).isSome) ||
      haveRemoteImage children || haveRemoteImage content

def haveRemoteImage : List Node → Bool
  | [] => false
  | node :: rest => node.hasRemoteImage || haveRemoteImage rest

end

section activation
variable [Unicode] [CssTree] [UrlParser]

/-- Storing a tree and activating it again changes images only, and the flag
    says whether there is one to change. -/
structure OnlyImagesChange (tree : Root) (applicationOrigin : String) : Prop where
  activated : (cleanMailHtml (cleanMailHtml tree (.store false)).1
      (.activate applicationOrigin)).1.children =
    activatedNodes applicationOrigin (cleanMailHtml tree (.store false)).1.children
  flag : (cleanMailHtml tree (.store false)).2 = .store true ↔
    haveRemoteImage (cleanMailHtml tree (.store false)).1.children = true

/-! ### Styles that fit -/

/-- The bytes of declarations written one after the other with a separator. -/
def writtenBytes (declarations : List Declaration) : Nat :=
  (declarations.map fun d => (CssTree.generate d.node).utf8ByteSize).sum +
    (declarations.length - 1)

/-- The allowed declarations of a style that is read take no more bytes than a
    style may. -/
def StyleFits (properties : Properties) : Prop :=
  ∀ source children, propertyText (properties.get "style") = some source →
    source.utf8ByteSize ≤ MAX_INLINE_STYLE_BYTES →
    CssTree.parse source = some (.declarationList children) →
    (∀ node ∈ children, node.isExpected = true) →
    writtenBytes (children.filterMap CssNode.kept) ≤ MAX_INLINE_STYLE_BYTES

mutual

/-- The styles of all elements that are kept fit. -/
def Node.StylesFit : Node → Prop
  | .text _ => True
  | .comment _ => True
  | .doctype => True
  | .element tagName properties children _ =>
    tagName ∉ DROPPED_ELEMENTS →
      (tagName ∈ ALLOWED_ELEMENTS → StyleFits properties) ∧ StylesFit children

def StylesFit : List Node → Prop
  | [] => True
  | node :: rest => node.StylesFit ∧ StylesFit rest

end

/-! ### One style -/

omit [Unicode] [UrlParser] in
theorem writtenBytes_eq (declarations : List Declaration) :
    (";".intercalate (declarations.map fun d => CssTree.generate d.node)).utf8ByteSize =
      writtenBytes declarations := by
  induction declarations with
  | nil => rfl
  | cons d rest ih =>
    cases rest with
    | nil => simp [writtenBytes]
    | cons next rest =>
      have hsemicolon : ";".utf8ByteSize = 1 := by decide
      simp only [List.map_cons, writtenBytes, List.sum_cons, List.length_cons] at ih ⊢
      rw [String.intercalate_cons_cons, String.utf8ByteSize_append, String.utf8ByteSize_append,
        ih, hsemicolon]
      omega

omit [CssTree] [UrlParser] in
/-- Declarations that are allowed are all accepted. -/
theorem acceptDeclarations_allowed {accepted : List Declaration}
    (h : ∀ d ∈ accepted, isAllowedDeclaration d = true) :
    acceptDeclarations (accepted.map Declaration.node) = some accepted := by
  induction accepted with
  | nil => rfl
  | cons d rest ih =>
    obtain ⟨hd, hrest⟩ := List.forall_mem_cons.mp h
    have hself : (⟨d.important, d.property, d.value⟩ : Declaration) = d := rfl
    simpa [Declaration.node, acceptDeclarations, hself, hd] using ih hrest

omit [UrlParser] in
theorem acceptedDeclarations_eq_some {source : String} {accepted : List Declaration} :
    acceptedDeclarations source = some accepted ↔
      ∃ children, CssTree.parse source = some (.declarationList children) ∧
        (∀ node ∈ children, node.isExpected = true) ∧
        children.filterMap CssNode.kept = accepted := by
  unfold acceptedDeclarations
  split
  · next children hparse =>
    simp only [acceptDeclarations_eq, List.all_eq_true, Option.ite_none_right_eq_some,
      Option.some.injEq]
    constructor
    · rintro ⟨hexpected, hkept⟩
      exact ⟨children, hparse, hexpected, hkept⟩
    · rintro ⟨children', hparse', hexpected, hkept⟩
      rw [hparse] at hparse'
      cases hparse'
      exact ⟨hexpected, hkept⟩
  · next hother =>
    refine iff_of_false (by simp) ?_
    rintro ⟨children, hparse, -⟩
    exact hother children hparse

omit [UrlParser] in
/-- Accepted declarations that were written out are accepted again. -/
theorem acceptedDeclarations_written [LawfulCssTree] {source : String}
    {accepted : List Declaration} (h : acceptedDeclarations source = some accepted)
    (hne : accepted ≠ []) :
    acceptedDeclarations (";".intercalate (accepted.map fun d => CssTree.generate d.node)) =
      some accepted := by
  obtain ⟨children, -, -, rfl⟩ := acceptedDeclarations_eq_some.mp h
  simp only [acceptedDeclarations, LawfulCssTree.parse_written h hne]
  exact acceptDeclarations_allowed fun d hd => (mem_filterMap_kept.mp hd).2

omit [UrlParser] in
theorem sanitizeInlineStyle_some {source : String} {accepted : List Declaration}
    (hsize : source.utf8ByteSize ≤ MAX_INLINE_STYLE_BYTES)
    (h : acceptedDeclarations source = some accepted) :
    sanitizeInlineStyle (some source) = styleText accepted := by
  rw [sanitizeInlineStyle, if_neg (Nat.not_lt.mpr hsize), h, Option.bind_some]

omit [UrlParser] in
theorem styleFits_iff {properties : Properties} {source : String} {accepted : List Declaration}
    (htext : propertyText (properties.get "style") = some source)
    (hsize : source.utf8ByteSize ≤ MAX_INLINE_STYLE_BYTES)
    (h : acceptedDeclarations source = some accepted) :
    StyleFits properties ↔ writtenBytes accepted ≤ MAX_INLINE_STYLE_BYTES := by
  obtain ⟨children, hparse, hexpected, rfl⟩ := acceptedDeclarations_eq_some.mp h
  constructor
  · exact fun hfits => hfits source children htext hsize hparse hexpected
  · intro hbytes source' children' htext' _ hparse' _
    rw [htext] at htext'
    cases htext'
    rw [hparse] at hparse'
    cases hparse'
    exact hbytes

omit [UrlParser] in
/-- A style of which nothing is kept fits. -/
theorem styleFits_of_none {properties : Properties}
    (h : sanitizeInlineStyle (propertyText (properties.get "style")) = none) :
    StyleFits properties := by
  intro source children htext hsize hparse hexpected
  have haccepted : acceptedDeclarations source = some (children.filterMap CssNode.kept) :=
    acceptedDeclarations_eq_some.mpr ⟨children, hparse, hexpected, rfl⟩
  rw [htext, sanitizeInlineStyle_some hsize haccepted] at h
  cases hkept : children.filterMap CssNode.kept with
  | nil => exact Nat.zero_le _
  | cons d rest => simp [hkept, styleText] at h

omit [UrlParser] in
/-- **A sanitized style is sanitized to itself exactly if it fits.** -/
theorem sanitizeInlineStyle_again [LawfulCssTree] (properties : Properties) :
    sanitizeInlineStyle (sanitizeInlineStyle (propertyText (properties.get "style"))) =
        sanitizeInlineStyle (propertyText (properties.get "style")) ↔
      StyleFits properties := by
  cases hstyle : sanitizeInlineStyle (propertyText (properties.get "style")) with
  | none => exact iff_of_true rfl (styleFits_of_none hstyle)
  | some style =>
    obtain ⟨source, htext⟩ : ∃ source, propertyText (properties.get "style") =
        some source := by
      cases htext : propertyText (properties.get "style") with
      | none => simp [htext, sanitizeInlineStyle] at hstyle
      | some source => exact ⟨source, rfl⟩
    rw [htext] at hstyle
    -- the style was read, so the source fits and its declarations were accepted
    have hsize : source.utf8ByteSize ≤ MAX_INLINE_STYLE_BYTES := by
      by_contra hlarge
      simp [sanitizeInlineStyle, Nat.lt_of_not_le hlarge] at hstyle
    cases haccepted : acceptedDeclarations source with
    | none => simp [sanitizeInlineStyle, haccepted] at hstyle
    | some accepted =>
      rw [sanitizeInlineStyle_some hsize haccepted] at hstyle
      have hne : accepted ≠ [] := by
        rintro rfl
        simp [styleText] at hstyle
      obtain rfl : ";".intercalate (accepted.map fun d => CssTree.generate d.node) = style := by
        simpa [styleText, hne] using hstyle
      -- the second pass accepts the same declarations, unless the limit stops it
      rw [styleFits_iff htext hsize haccepted, ← writtenBytes_eq]
      constructor
      · intro hagain
        by_contra hlarge
        simp [sanitizeInlineStyle, Nat.lt_of_not_le hlarge] at hagain
      · intro hfits
        rw [sanitizeInlineStyle_some hfits (acceptedDeclarations_written haccepted hne), hstyle]

/-! ### One element -/

omit [Unicode] [CssTree] [UrlParser] in
theorem copyAllowedProperty_again (name : String) (value : PropertyValue) :
    copyAllowedProperty name (copyAllowedProperty name value) = copyAllowedProperty name value := by
  by_cases hreversed : name = "reversed"
  · rcases value with _ | _ | (_ | _) | _ | _ | _ <;> simp [copyAllowedProperty, hreversed]
  · rcases value with _ | _ | (_ | _) | _ | _ | _ <;> simp [copyAllowedProperty, hreversed]

omit [Unicode] [CssTree] [UrlParser] in
theorem copiedProperty_eq_some {tagName name : String} {value value' : PropertyValue} :
    copiedProperty tagName name value = some value' ↔
      ¬ (name ∉ GLOBAL_PROPERTIES ∧ name ∉ ELEMENT_PROPERTIES tagName) ∧
        copyAllowedProperty name value = value' ∧ value' ≠ .undefined := by
  unfold copiedProperty
  split
  · next hrefused => simp [hrefused]
  · next hallowed =>
    rw [and_iff_right hallowed]
    split
    · next hundefined => simpa [hundefined] using Eq.symm
    · next hdefined =>
      rw [Option.some.injEq]
      constructor
      · rintro rfl
        exact ⟨rfl, hdefined⟩
      · exact And.left

omit [Unicode] [CssTree] [UrlParser] in
theorem copiedProperty_again (tagName name : String) (value value' : PropertyValue)
    (h : copiedProperty tagName name value = some value') :
    copiedProperty tagName name value' = some value' := by
  obtain ⟨hallowed, rfl, hdefined⟩ := copiedProperty_eq_some.mp h
  exact copiedProperty_eq_some.mpr ⟨hallowed, copyAllowedProperty_again name value, hdefined⟩

omit [Unicode] [CssTree] in
theorem canonicalHttpsUrl_again [LawfulUrlParser] (source : Option String) :
    canonicalHttpsUrl ((canonicalHttpsUrl source).map Url.href) = canonicalHttpsUrl source := by
  cases h : canonicalHttpsUrl source with
  | none => rfl
  | some url => exact canonicalHttpsUrl_of_isHttps (isHttps_href h)

omit [Unicode] [CssTree] [UrlParser] in
theorem propertyText_get {properties : Properties} {name : String} {text : Option String}
    (h : ∀ value, properties.get? name = some value ↔ ∃ t, text = some t ∧
      value = .string t) :
    propertyText (properties.get name) = text := by
  cases text with
  | none =>
    have hnone : properties.get? name = none := by
      rw [Option.eq_none_iff_forall_not_mem]
      intro value hvalue
      obtain ⟨_, htext, -⟩ := (h value).mp hvalue
      cases htext
    rw [Properties.get, hnone]
    rfl
  | some t =>
    rw [Properties.get, (h _).mpr ⟨t, rfl, rfl⟩]
    rfl

theorem stored_style (tagName : String) (source : Properties) (context : MailHtmlCleanContext) :
    propertyText ((cleanProperties tagName source context).1.get "style") =
      sanitizeInlineStyle (propertyText (source.get "style")) :=
  propertyText_get fun _ => get?_style

theorem stored_href (source : Properties) (context : MailHtmlCleanContext) :
    propertyText ((cleanProperties "a" source context).1.get "href") =
      (canonicalHttpsUrl (propertyText (source.get "href"))).map Url.href := by
  refine propertyText_get fun value => ?_
  rw [get?_anchor (by decide)]
  cases canonicalHttpsUrl (propertyText (source.get "href")) <;> simp [anchorEntries]

theorem stored_remote (source : Properties) (b : Bool) (value : PropertyValue) :
    (cleanProperties "img" source (.store b)).1.get? REMOTE_SOURCE_PROPERTY = some value ↔
      ∃ t, (remoteSource source .store).map Url.href = some t ∧ value = .string t := by
  rw [get?_image (by decide), MailHtmlCleanContext.mode]
  cases remoteSource source .store <;> simp [imageEntries]

/-- What activation writes on a stored element. -/
theorem writtenEntries_stored [LawfulUrlParser] (tagName applicationOrigin : String)
    (source : Properties) (b : Bool) :
    writtenEntries tagName (cleanProperties tagName source (.store b)).1
        (.activate applicationOrigin) =
      styleEntries (sanitizeInlineStyle (sanitizeInlineStyle
        (propertyText (source.get "style")))) ++
      ((if tagName = "a" then
          anchorEntries (canonicalHttpsUrl (propertyText (source.get "href")))
        else []) ++
        if tagName = "img" then
          imageEntries (.activate applicationOrigin) (remoteSource source .store)
        else []) := by
  rw [writtenEntries, stored_style]
  -- each group of properties is written from what the first pass left
  congr 2
  · by_cases ha : tagName = "a"
    · rw [if_pos ha, if_pos ha, ha, stored_href, canonicalHttpsUrl_again]
    · rw [if_neg ha, if_neg ha]
  · by_cases himg : tagName = "img"
    · rw [if_pos himg, if_pos himg, himg]
      simp only [remoteSource]
      rw [propertyText_get (stored_remote source b)]
      congr 1
      exact canonicalHttpsUrl_again _
    · rw [if_neg himg, if_neg himg]

/-- The properties of a stored element after a second pass. -/
theorem cleaned_again_entries [LawfulUrlParser] (tagName applicationOrigin : String)
    (source : Properties) (b : Bool) :
    (cleanProperties tagName (cleanProperties tagName source (.store b)).1
        (.activate applicationOrigin)).1.entries =
      Record.copied (copiedProperty tagName) source.entries ++
        writtenEntries tagName (cleanProperties tagName source (.store b)).1
          (.activate applicationOrigin) := by
  have hcopies : Record.copied (copiedProperty tagName)
      (cleanProperties tagName source (.store b)).1.entries =
        Record.copied (copiedProperty tagName) source.entries := by
    rw [cleanProperties_entries, Record.copied_append,
      Record.copied_copied (copiedProperty_again tagName),
      Record.copied_eq_nil fun entry hentry =>
        copiedProperty_written (writtenEntries_names hentry) entry.2, List.append_nil]
  rw [cleanProperties_entries, hcopies, MailHtmlCleanContext.mode]

/-- A stored image has no live source yet. -/
theorem stored_fresh {source : Properties} {b : Bool} {name : String}
    (hname : name ∈ ["src", "referrerPolicy"]) :
    name ∉ (cleanProperties "img" source (.store b)).1.names := by
  intro hmem
  obtain ⟨⟨name, value⟩, hentry, rfl⟩ := List.mem_map.mp hmem
  have hlive : name ∈ [REMOTE_SOURCE_PROPERTY, "src", "referrerPolicy"] :=
    List.mem_cons_of_mem _ hname
  have himage := (get?_image hlive).mp (Record.get?_of_mem hentry)
  rw [MailHtmlCleanContext.mode] at himage
  cases hremote : remoteSource source .store with
  | none => simp [hremote, imageEntries] at himage
  | some remote =>
    obtain ⟨rfl, -⟩ : name = REMOTE_SOURCE_PROPERTY ∧ value = .string remote.href := by
      simpa [hremote, imageEntries] using himage
    exact absurd hname (by simp [REMOTE_SOURCE_PROPERTY])

theorem stored_setAll {source : Properties} {b : Bool} (value value' : PropertyValue) :
    (((cleanProperties "img" source (.store b)).1.set "src" value).set
        "referrerPolicy" value').entries =
      (cleanProperties "img" source (.store b)).1.entries ++
        [("src", value), ("referrerPolicy", value')] := by
  refine @Record.setAll_entries _ _ [("src", value), ("referrerPolicy", value')] ?_
  rw [List.map_append, List.nodup_append]
  refine ⟨Record.nodup _, by simp, ?_⟩
  rintro name hname _ hlive rfl
  exact stored_fresh hlive hname

/-- The properties that a stored element is meant to have after activation. -/
theorem activatedProperties_entries [LawfulUrlParser] (tagName applicationOrigin : String)
    (source : Properties) (b : Bool) :
    (activatedProperties applicationOrigin tagName
        (cleanProperties tagName source (.store b)).1).entries =
      Record.copied (copiedProperty tagName) source.entries ++
      (styleEntries (sanitizeInlineStyle (propertyText (source.get "style"))) ++
      ((if tagName = "a" then
          anchorEntries (canonicalHttpsUrl (propertyText (source.get "href")))
        else []) ++
        if tagName = "img" then
          imageEntries (.activate applicationOrigin) (remoteSource source .store)
        else [])) := by
  have hstored := cleanProperties_entries tagName source (.store b)
  rw [writtenEntries, MailHtmlCleanContext.mode] at hstored
  unfold activatedProperties
  by_cases himg : tagName = "img"
  · subst himg
    have hremote := stored_remote source b
    cases hurl : remoteSource source .store with
    | none =>
      -- without a stored source nothing is written in either pass
      have hnone : (cleanProperties "img" source (.store b)).1.get? REMOTE_SOURCE_PROPERTY =
          none := by
        rw [Option.eq_none_iff_forall_not_mem]
        intro value hvalue
        simpa [hurl] using (hremote value).mp hvalue
      rw [hurl] at hstored
      simpa [hnone, imageEntries] using hstored
    | some remote =>
      have hsome := (hremote (.string remote.href)).mpr ⟨_, by rw [hurl]; rfl, rfl⟩
      -- the stored source is read as the address it was written from
      have hparse : UrlParser.parse remote.href = some remote := (isHttps_href hurl).parsed
      rw [hurl] at hstored
      rw [if_pos rfl, hsome]
      simp only [hparse]
      by_cases horigin : remote.origin = applicationOrigin
      · simpa [horigin, imageEntries] using hstored
      · rw [if_neg horigin, stored_setAll, hstored]
        simp [horigin, imageEntries]
  · rw [if_neg himg, hstored, if_neg himg, if_neg himg]

/-- **A stored element is activated as intended exactly if its style fits.** -/
theorem activatedProperties_iff [LawfulUrlParser] [LawfulCssTree]
    (tagName applicationOrigin : String) (source : Properties) (b : Bool) :
    (cleanProperties tagName (cleanProperties tagName source (.store b)).1
        (.activate applicationOrigin)).1 =
      activatedProperties applicationOrigin tagName
        (cleanProperties tagName source (.store b)).1 ↔ StyleFits source := by
  have hstyle : ∀ style style' : Option String,
      styleEntries style = styleEntries style' ↔ style = style' := by
    intro style style'
    cases style <;> cases style' <;> simp [styleEntries]
  rw [Record.ext_iff, cleaned_again_entries, writtenEntries_stored, activatedProperties_entries,
    List.append_right_inj, List.append_left_inj, hstyle, sanitizeInlineStyle_again]

/-! ### The tree -/

theorem cleanChildren_append (nodes more : List Node) (context : MailHtmlCleanContext) :
    (cleanChildren (nodes ++ more) context).1 =
      (cleanChildren nodes context).1 ++
        (cleanChildren more (cleanChildren nodes context).2).1 := by
  induction nodes generalizing context with
  | nil => rfl
  | cons node rest ih =>
    rw [List.cons_append, cleanChildren, cleanChildren]
    simp only [ih, List.append_assoc]

theorem cleanChildren_activate (nodes : List Node) (applicationOrigin : String) :
    (cleanChildren nodes (.activate applicationOrigin)).2 = .activate applicationOrigin := by
  have hmode := cleanChildren_mode nodes (.activate applicationOrigin)
  cases hcontext : (cleanChildren nodes (.activate applicationOrigin)).2 with
  | store b => simp [hcontext, MailHtmlCleanContext.mode] at hmode
  | activate origin =>
    rw [hcontext] at hmode
    simpa [MailHtmlCleanContext.mode] using hmode

/-- A node of the safe language is kept. -/
theorem cleanChildren_length {mode : Mode} {nodes : List Node}
    (h : ∀ node ∈ nodes, SafeNode mode node) (context : MailHtmlCleanContext) :
    (cleanChildren nodes context).1.length = nodes.length := by
  induction nodes generalizing context with
  | nil => rfl
  | cons node rest ih =>
    obtain ⟨hnode, hrest⟩ := List.forall_mem_cons.mp h
    cases hnode with
    | text value => rw [cleanChildren_text, List.length_cons, List.length_cons, ih hrest]
    | element allowed safe below =>
      rw [cleanChildren_kept allowed.2 allowed.1]
      simp only [List.length_cons, ih hrest]

omit [Unicode] [CssTree] in
theorem activatedNodes_append (applicationOrigin : String) (nodes more : List Node) :
    activatedNodes applicationOrigin (nodes ++ more) =
      activatedNodes applicationOrigin nodes ++ activatedNodes applicationOrigin more := by
  induction nodes with
  | nil => rfl
  | cons node rest ih => rw [List.cons_append, activatedNodes, activatedNodes, ih, List.cons_append]

omit [Unicode] [CssTree] in
theorem activatedNodes_length (applicationOrigin : String) (nodes : List Node) :
    (activatedNodes applicationOrigin nodes).length = nodes.length := by
  induction nodes with
  | nil => rfl
  | cons node rest ih => rw [activatedNodes, List.length_cons, List.length_cons, ih]

/-- The context after a pass in mode `store`, without its name. -/
theorem cleanChildren_store (nodes : List Node) (b : Bool) :
    ∃ b', (cleanChildren nodes (.store b)).2 = .store b' := by
  have hmode := cleanChildren_mode nodes (.store b)
  cases hcontext : (cleanChildren nodes (.store b)).2 with
  | store b' => exact ⟨b', rfl⟩
  | activate origin => simp [hcontext, MailHtmlCleanContext.mode] at hmode

/-- **The stored nodes are activated as intended exactly if all styles fit.** -/
theorem cleanChildren_again_iff [LawfulUrlParser] [LawfulCssTree] (applicationOrigin : String)
    (nodes : List Node) (b : Bool) :
    (cleanChildren (cleanChildren nodes (.store b)).1 (.activate applicationOrigin)).1 =
      activatedNodes applicationOrigin (cleanChildren nodes (.store b)).1 ↔ StylesFit nodes := by
  induction nodes using Node.list_induction generalizing b with
  | nil => exact iff_of_true rfl trivial
  | text value rest ih =>
    rw [cleanChildren_text, cleanChildren_text, activatedNodes, activatedNode, StylesFit,
      Node.StylesFit, true_and, List.cons.injEq, and_iff_right rfl]
    exact ih b
  | comment value rest ih =>
    rw [cleanChildren_comment, StylesFit, Node.StylesFit, true_and]
    exact ih b
  | doctype rest ih =>
    rw [cleanChildren_doctype, StylesFit, Node.StylesFit, true_and]
    exact ih b
  | element tagName properties children content rest ihchildren _ ihrest =>
    rw [StylesFit, Node.StylesFit]
    by_cases hdropped : tagName ∈ DROPPED_ELEMENTS
    · -- neither pass sees a dropped element
      rw [cleanChildren_dropped hdropped, ihrest]
      tauto
    by_cases hallowed : tagName ∈ ALLOWED_ELEMENTS
    · -- a kept element is met again: its properties, its children and the rest compare apart
      rw [cleanChildren_kept hdropped hallowed]
      have hcontext : ∃ b', (cleanProperties tagName properties (.store b)).2 = .store b' := by
        rw [cleanProperties_context]
        exact ⟨_, rfl⟩
      obtain ⟨b₁, hb₁⟩ := hcontext
      obtain ⟨b₂, hb₂⟩ := cleanChildren_store children b₁
      simp only [hb₁, hb₂]
      rw [cleanChildren_kept hdropped hallowed, activatedNodes, activatedNode]
      have hactivate : (cleanProperties tagName (cleanProperties tagName properties (.store b)).1
          (.activate applicationOrigin)).2 = .activate applicationOrigin := by
        rw [cleanProperties_context]
      simp only [hactivate, cleanChildren_activate, List.cons.injEq, Node.element.injEq,
        activatedProperties_iff, ihchildren, ihrest]
      tauto
    · rw [cleanChildren_unwrapped hdropped hallowed]
      obtain ⟨b₁, hb₁⟩ := cleanChildren_store children b
      simp only [hb₁]
      -- the second pass keeps the number of nodes, so that the two parts of the list
      -- can be compared one by one
      have hlength : (cleanChildren (cleanChildren children (.store b)).1
          (.activate applicationOrigin)).1.length =
            (activatedNodes applicationOrigin (cleanChildren children (.store b)).1).length := by
        rw [activatedNodes_length]
        exact cleanChildren_length (cleanChildren_safe children (.store b)) _
      rw [cleanChildren_append, cleanChildren_activate, activatedNodes_append]
      constructor
      · intro happend
        obtain ⟨hbelow, hothers⟩ := List.append_inj happend hlength
        have hchildren := (ihchildren b).mp hbelow
        have hrest := (ihrest b₁).mp hothers
        tauto
      · intro hfits
        rw [(ihchildren b).mpr (hfits.1 hdropped).2, (ihrest b₁).mpr hfits.2]

/-! ### The flag -/

omit [Unicode] [CssTree] [UrlParser] in
theorem haveRemoteImage_append (nodes more : List Node) :
    haveRemoteImage (nodes ++ more) = (haveRemoteImage nodes || haveRemoteImage more) := by
  induction nodes with
  | nil => rfl
  | cons node rest ih => rw [List.cons_append, haveRemoteImage, haveRemoteImage, ih, Bool.or_assoc]

/-- An element of the store raises the flag when it carries a remote source. -/
theorem cleanProperties_flag (tagName : String) (source : Properties) (b : Bool) :
    (cleanProperties tagName source (.store b)).2 =
      .store (b || (tagName = "img" &&
        ((cleanProperties tagName source (.store b)).1.get? REMOTE_SOURCE_PROPERTY).isSome)) := by
  rw [cleanProperties_context]
  by_cases himg : tagName = "img"
  · subst himg
    have hremote : (remoteSource source .store).isSome =
        ((cleanProperties "img" source (.store b)).1.get? REMOTE_SOURCE_PROPERTY).isSome := by
      rw [Bool.eq_iff_iff, Option.isSome_iff_exists, Option.isSome_iff_exists]
      simp only [stored_remote, Option.map_eq_some_iff]
      constructor
      · rintro ⟨remote, hsome⟩
        exact ⟨_, _, ⟨remote, hsome, rfl⟩, rfl⟩
      · rintro ⟨_, _, ⟨remote, hsome, -⟩, -⟩
        exact ⟨remote, hsome⟩
    simp only [hremote]
  · simp [himg]

/-- **The flag says whether a stored image carries a remote source.** -/
theorem cleanChildren_flag (nodes : List Node) (b : Bool) :
    (cleanChildren nodes (.store b)).2 =
      .store (b || haveRemoteImage (cleanChildren nodes (.store b)).1) := by
  induction nodes using Node.list_induction generalizing b with
  | nil => simp [cleanChildren, haveRemoteImage]
  | text value rest ih =>
    rw [cleanChildren_text, haveRemoteImage, Node.hasRemoteImage, Bool.false_or]
    exact ih b
  | comment value rest ih => exact ih b
  | doctype rest ih => exact ih b
  | element tagName properties children content rest ihchildren _ ihrest =>
    -- the flag collects what stands on the kept elements, in any order
    by_cases hdropped : tagName ∈ DROPPED_ELEMENTS
    · rw [cleanChildren_dropped hdropped]
      exact ihrest b
    by_cases hallowed : tagName ∈ ALLOWED_ELEMENTS
    · rw [cleanChildren_kept hdropped hallowed]
      simp only [haveRemoteImage, Node.hasRemoteImage, cleanProperties_flag, ihchildren, ihrest,
        Bool.or_false, Bool.or_assoc]
    · rw [cleanChildren_unwrapped hdropped hallowed]
      simp only [haveRemoteImage_append, ihchildren, ihrest, Bool.or_assoc]

/-- **Activation changes images only, exactly if every style of a kept element
    fits** after its allowed declarations were written out. -/
theorem onlyImagesChange_iff [LawfulUrlParser] [LawfulCssTree] (tree : Root)
    (applicationOrigin : String) :
    OnlyImagesChange tree applicationOrigin ↔ StylesFit tree.children := by
  have htree := cleanChildren_again_iff applicationOrigin tree.children false
  constructor
  · exact fun h => htree.mp h.activated
  · intro hfits
    refine ⟨htree.mpr hfits, ?_⟩
    have hflag := cleanChildren_flag tree.children false
    simp only [cleanMailHtml, hflag, Bool.false_or, MailHtmlCleanContext.store.injEq]

end activation

namespace Sample.Activation

open Sample.Html

def repeated (text : String) : Nat → String
  | 0 => ""
  | n + 1 => text ++ repeated text n

theorem repeated_bytes (text : String) (n : Nat) :
    (repeated text n).utf8ByteSize = n * text.utf8ByteSize := by
  induction n with
  | zero => simp [repeated]
  | succ n ih => rw [repeated, String.utf8ByteSize_append, ih, Nat.succ_mul, Nat.add_comm]

/-- A font whose name consists of quotes, in apostrophes. -/
def quotedSource : String := "font-family:'" ++ repeated "\"" 4200 ++ "'"

/-- The same font as the generator writes it: in quotes, each quote escaped. -/
def requoted : String := "font-family:\"" ++ repeated "\\\"" 4200 ++ "\""

def quotedFont : Declaration where
  important := .no
  property := "font-family"
  value := .value [.string (repeated "\"" 4200)]

def redColor : Declaration where
  important := .no
  property := "color"
  value := .value [.identifier "red"]

scoped instance keptCase : Unicode := Style.sameCase

/-- `css-tree` as far as these two declarations go. -/
scoped instance twoStyles : CssTree where
  parse source :=
    if source = quotedSource ∨ source = requoted then
      some (.declarationList [quotedFont.node])
    else if source = "color:red" then some (.declarationList [redColor.node])
    else none
  generate
    | .declaration _ "color" _ => "color:red"
    | _ => requoted

theorem quotedSource_bytes : quotedSource.utf8ByteSize = 4214 := by
  rw [quotedSource, String.utf8ByteSize_append, String.utf8ByteSize_append, repeated_bytes]
  decide

theorem requoted_bytes : requoted.utf8ByteSize = 8414 := by
  rw [requoted, String.utf8ByteSize_append, String.utf8ByteSize_append, repeated_bytes]
  decide

theorem quotedFont_kept : [quotedFont.node].filterMap CssNode.kept = [quotedFont] := rfl

theorem redColor_kept : [redColor.node].filterMap CssNode.kept = [redColor] := rfl

theorem parse_red : CssTree.parse "color:red" = some (.declarationList [redColor.node]) := by
  have hquoted : "color:red" ≠ quotedSource := by
    intro heq
    exact absurd (heq ▸ quotedSource_bytes) (by decide)
  have hrequoted : "color:red" ≠ requoted := by
    intro heq
    exact absurd (heq ▸ requoted_bytes) (by decide)
  simp [CssTree.parse, hquoted, hrequoted]

scoped instance twoStyles_lawful : LawfulCssTree where
  parse_written := by
    intro source accepted h _
    obtain ⟨children, hparse, -, rfl⟩ := acceptedDeclarations_eq_some.mp h
    simp only [CssTree.parse] at hparse
    split at hparse
    · obtain rfl : [quotedFont.node] = children := by simpa using hparse
      rw [quotedFont_kept]
      exact if_pos (.inr rfl)
    · split at hparse
      · obtain rfl : [redColor.node] = children := by simpa using hparse
        rw [redColor_kept]
        exact parse_red
      · cases hparse

def quotedPage : Root where
  children :=
    [.element "p" (Record.empty.set "style" (.string quotedSource)) [.text "Hello"] []]

/-- The font is stored, and lost when the message is activated. -/
theorem quotedPage_changes : ¬ OnlyImagesChange quotedPage "https://mail.example" := by
  intro h
  have hfit := (cleanChildren_again_iff _ quotedPage.children false).mp h.activated
  have hstyle := (hfit.1 (by decide)).1 (by decide)
  have hbytes := hstyle quotedSource [quotedFont.node] rfl
    (by rw [quotedSource_bytes]; decide) (if_pos (.inl rfl))
    (by simp [Declaration.node, CssNode.isExpected])
  rw [quotedFont_kept, ← writtenBytes_eq] at hbytes
  simp only [List.map_singleton, String.intercalate_singleton] at hbytes
  exact absurd (requoted_bytes ▸ hbytes) (by decide)

def redPage : Root where
  children :=
    [.element "p" (Record.empty.set "style" (.string "color:red"))
      [.element "img" (Record.empty.set "src" (.string picture.href)) [] []] []]

theorem redPage_activated : OnlyImagesChange redPage "https://mail.example" := by
  refine (onlyImagesChange_iff redPage "https://mail.example").mpr ?_
  have hp : StyleFits (Record.empty.set "style" (.string "color:red")) := by
    intro source children htext _ hparse _
    obtain rfl : "color:red" = source := Option.some.inj htext
    rw [parse_red] at hparse
    obtain rfl : [redColor.node] = children := by simpa using hparse
    rw [redColor_kept]
    decide
  have himg : StyleFits (Record.empty.set "src" (.string picture.href)) := by
    intro source children htext
    cases htext
  exact ⟨fun _ => ⟨fun _ => hp, fun _ => ⟨fun _ => himg, trivial⟩, trivial⟩, trivial⟩

end Sample.Activation

end Umail
