import Umail.Framework.Worklist

/-! # The depth of a parsed mail tree

  `validateFinalTreeDepth` and `isMailHtmlTemplate` of
  `apps/server/src/mail/html-parser.ts`: a loop over a stack of parent nodes
  that refuses a tree with a node below `finalTreeDepth`. Everything after
  it recurses over the tree and relies on this bound.

  `TreeEdge` says what one step down is: from a parent to a child, and from
  a template to its content. The frames of the loop are the parents among
  the places that these steps reach.
-/

namespace Umail

open Relation

/-- `MAIL_HTML_PARSE_LIMITS.finalTreeDepth`. -/
def finalTreeDepth : Nat := 128

structure MailHtmlResourceExhaustion where
  limit : String
  deriving DecidableEq

/-! ### The tree -/

/-- A child node of the parser's tree. An element of the second kind has the
    property `content`, which holds a fragment. -/
inductive ParsedNode where
  | text (value : String)
  | comment (data : String)
  | documentType (name : String)
  | element (tagName : String) (childNodes : List ParsedNode)
  | elementWithContent (tagName : String) (childNodes content : List ParsedNode)

namespace ParsedNode

def isElementNode : ParsedNode → Bool
  | .element .. | .elementWithContent .. => true
  | _ => false

def childNodes : ParsedNode → List ParsedNode
  | .element _ childNodes | .elementWithContent _ childNodes _ => childNodes
  | _ => []

/-- The type guard `isMailHtmlTemplate`, with the content fragment it gives
    access to. -/
def isMailHtmlTemplate : ParsedNode → Option (List ParsedNode)
  | .elementWithContent tagName _ content => if tagName = "template" then some content else none
  | _ => none

end ParsedNode

/-- Where a depth is counted: at a fragment or at a child node. -/
inductive MailHtmlNode where
  | fragment (childNodes : List ParsedNode)
  | child (node : ParsedNode)

def getChildNodes : MailHtmlNode → List ParsedNode
  | .fragment childNodes => childNodes
  | .child node => node.childNodes

structure MailHtmlDepthFrame where
  node : MailHtmlNode
  depth : Nat

/-! ### The loop -/

def finalTreeDepthExhausted : MailHtmlResourceExhaustion := { limit := "final_tree_depth" }

/-- The `for` loop over the children of one frame. -/
def pushChildren (parentDepth : Nat) :
    List ParsedNode → List MailHtmlDepthFrame →
      Except MailHtmlResourceExhaustion (List MailHtmlDepthFrame)
  | [], stack => .ok stack
  | child :: rest, stack =>
    let depth := parentDepth + 1
    if finalTreeDepth < depth then .error finalTreeDepthExhausted
    else if !child.isElementNode then pushChildren parentDepth rest stack
    else
      let stack := ⟨.child child, depth⟩ :: stack
      match child.isMailHtmlTemplate with
      | none => pushChildren parentDepth rest stack
      | some content =>
        let contentDepth := depth + 1
        if finalTreeDepth < contentDepth then .error finalTreeDepthExhausted
        else pushChildren parentDepth rest (⟨.fragment content, contentDepth⟩ :: stack)

/-- One round: the popped frame and the rest of the stack. -/
def visitFrame (frame : MailHtmlDepthFrame) (stack : List MailHtmlDepthFrame) :
    Except MailHtmlResourceExhaustion (List MailHtmlDepthFrame) :=
  pushChildren frame.depth (getChildNodes frame.node) stack

/-- `validateFinalTreeDepth` for at most `rounds` rounds. -/
def validateFinalTreeDepth (rounds : Nat) (fragment : List ParsedNode) :
    Option (Except MailHtmlResourceExhaustion Unit) :=
  Worklist.run visitFrame rounds [⟨.fragment fragment, 0⟩]

/-! ### Depth -/

/-- One step down the tree. -/
inductive TreeEdge : MailHtmlDepthFrame → MailHtmlDepthFrame → Prop where
  | child {parent : MailHtmlDepthFrame} {node : ParsedNode} :
      node ∈ getChildNodes parent.node → TreeEdge parent ⟨.child node, parent.depth + 1⟩
  | content {node : ParsedNode} {depth : Nat} {content : List ParsedNode} :
      node.isMailHtmlTemplate = some content →
        TreeEdge ⟨.child node, depth⟩ ⟨.fragment content, depth + 1⟩

/-- Somewhere in the tree under `fragment`, at its depth. -/
def InTree (fragment : List ParsedNode) : MailHtmlDepthFrame → Prop :=
  ReflTransGen TreeEdge ⟨.fragment fragment, 0⟩

/-- A fragment or an element. -/
def MailHtmlDepthFrame.IsParent (place : MailHtmlDepthFrame) : Prop :=
  ∀ node, place.node = .child node → node.isElementNode = true

/-! ### The frames of a tree -/

mutual

/-- The parents at and under a child node at `depth`, its template content
    included, each once. -/
def ParsedNode.frames : ParsedNode → Nat → List MailHtmlDepthFrame
  | .element tagName childNodes, depth =>
    ⟨.child (.element tagName childNodes), depth⟩ :: framesOf childNodes (depth + 1)
  | .elementWithContent tagName childNodes content, depth =>
    (if tagName = "template" then
      ⟨.fragment content, depth + 1⟩ :: framesOf content (depth + 2)
    else []) ++
    ⟨.child (.elementWithContent tagName childNodes content), depth⟩ ::
      framesOf childNodes (depth + 1)
  | _, _ => []

def framesOf : List ParsedNode → Nat → List MailHtmlDepthFrame
  | [], _ => []
  | node :: rest, depth => framesOf rest depth ++ node.frames depth

end

/-- Every parent under `fragment`, that fragment first. -/
def parentFrames (fragment : List ParsedNode) : List MailHtmlDepthFrame :=
  ⟨.fragment fragment, 0⟩ :: framesOf fragment 1

/-! ### One visit -/

/-- A frame and the parents among what is under its children. -/
def MailHtmlDepthFrame.below (frame : MailHtmlDepthFrame) : List MailHtmlDepthFrame :=
  frame :: framesOf (getChildNodes frame.node) (frame.depth + 1)

/-- The frames pushed for one child at `depth`, the topmost first. -/
def pushedFor (depth : Nat) (child : ParsedNode) : List MailHtmlDepthFrame :=
  if child.isElementNode then
    (child.isMailHtmlTemplate.map fun content => ⟨.fragment content, depth + 1⟩).toList ++
      [⟨.child child, depth⟩]
  else []

def pushedOf (depth : Nat) : List ParsedNode → List MailHtmlDepthFrame
  | [] => []
  | child :: rest => pushedOf depth rest ++ pushedFor depth child

def MailHtmlDepthFrame.pushed (frame : MailHtmlDepthFrame) : List MailHtmlDepthFrame :=
  pushedOf (frame.depth + 1) (getChildNodes frame.node)

/-- A child at `depth`, or its template content, is too deep. -/
def TooDeep (depth : Nat) (child : ParsedNode) : Prop :=
  finalTreeDepth < depth ∨ (child.isMailHtmlTemplate.isSome ∧ finalTreeDepth < depth + 1)

def MailHtmlDepthFrame.Raises (frame : MailHtmlDepthFrame) : Prop :=
  ∃ child ∈ getChildNodes frame.node, TooDeep (frame.depth + 1) child

theorem mem_pushedOf {depth : Nat} {children : List ParsedNode} {frame : MailHtmlDepthFrame} :
    frame ∈ pushedOf depth children ↔ ∃ child ∈ children,
      frame ∈ pushedFor depth child := by
  induction children with
  | nil => simp [pushedOf]
  | cons child rest ih => simp [pushedOf, ih, or_comm]

/-- Only elements have template content. -/
theorem isElementNode_of_template {child : ParsedNode} {content : List ParsedNode}
    (h : child.isMailHtmlTemplate = some content) : child.isElementNode = true := by
  cases child <;> simp_all [ParsedNode.isMailHtmlTemplate, ParsedNode.isElementNode]

/-- The inner loop: one child that is too deep stops it, and otherwise every
    child leaves its frames on the stack. -/
theorem pushChildren_eq (parentDepth : Nat) (children : List ParsedNode)
    (stack : List MailHtmlDepthFrame) :
    ((∃ child ∈ children, TooDeep (parentDepth + 1) child) ∧
      pushChildren parentDepth children stack = .error finalTreeDepthExhausted) ∨
    ((∀ child ∈ children, ¬ TooDeep (parentDepth + 1) child) ∧
      pushChildren parentDepth children stack =
        .ok (pushedOf (parentDepth + 1) children ++ stack)) := by
  induction children generalizing stack with
  | nil => exact .inr ⟨by simp, rfl⟩
  | cons child rest ih =>
    by_cases hdeep : TooDeep (parentDepth + 1) child
    · refine .inl ⟨⟨child, List.mem_cons_self, hdeep⟩, ?_⟩
      rw [pushChildren]
      obtain hdepth | ⟨hcontent, hdepth⟩ := hdeep
      · rw [if_pos hdepth]
      · obtain ⟨content, hcontent⟩ := Option.isSome_iff_exists.mp hcontent
        have helement : child.isElementNode = true := isElementNode_of_template hcontent
        simp [helement, hcontent, hdepth]
    · obtain ⟨hdepth, hcontent⟩ := not_or.mp hdeep
      -- this child leaves its frames, whatever they are, and the loop goes on
      have hpush : pushChildren parentDepth (child :: rest) stack =
          pushChildren parentDepth rest (pushedFor (parentDepth + 1) child ++ stack) := by
        rw [pushChildren, if_neg hdepth]
        by_cases helement : child.isElementNode
        · cases htemplate : child.isMailHtmlTemplate with
          | none => simp [helement, htemplate, pushedFor]
          | some content =>
            have hshallow : ¬ finalTreeDepth < parentDepth + 1 + 1 := fun h =>
              hcontent ⟨by simp [htemplate], h⟩
            simp [helement, htemplate, pushedFor, hshallow]
        · simp [helement, pushedFor]
      rw [hpush]
      obtain ⟨⟨other, hother, hdeep'⟩, herror⟩ | ⟨hnone, hok⟩ :=
        ih (pushedFor (parentDepth + 1) child ++ stack)
      · exact .inl ⟨⟨other, List.mem_cons_of_mem child hother, hdeep'⟩, herror⟩
      · refine .inr ⟨List.forall_mem_cons.mpr ⟨hdeep, hnone⟩, ?_⟩
        rw [hok, pushedOf, List.append_assoc]

theorem visits_visitFrame : Worklist.Visits visitFrame finalTreeDepthExhausted
    MailHtmlDepthFrame.Raises MailHtmlDepthFrame.pushed where
  raise := by
    intro frame stack hraise
    obtain ⟨-, herror⟩ | ⟨hnone, -⟩ :=
      pushChildren_eq frame.depth (getChildNodes frame.node) stack
    · exact herror
    · obtain ⟨child, hchild, hdeep⟩ := hraise
      exact absurd hdeep (hnone child hchild)
  push := by
    intro frame stack hraise
    obtain ⟨hdeep, -⟩ | ⟨-, hok⟩ :=
      pushChildren_eq frame.depth (getChildNodes frame.node) stack
    · exact absurd hdeep hraise
    · exact hok

theorem frames_eq (child : ParsedNode) (depth : Nat) :
    child.frames depth = (pushedFor depth child).flatMap MailHtmlDepthFrame.below := by
  cases child with
  | text | comment | documentType => simp [ParsedNode.frames, pushedFor, ParsedNode.isElementNode]
  | element tagName childNodes =>
    simp [ParsedNode.frames, pushedFor, ParsedNode.isElementNode, ParsedNode.isMailHtmlTemplate,
      MailHtmlDepthFrame.below, getChildNodes, ParsedNode.childNodes]
  | elementWithContent tagName childNodes content =>
    by_cases htemplate : tagName = "template" <;>
      simp [ParsedNode.frames, pushedFor, ParsedNode.isElementNode, ParsedNode.isMailHtmlTemplate,
        MailHtmlDepthFrame.below, getChildNodes, ParsedNode.childNodes, htemplate]

theorem framesOf_eq (children : List ParsedNode) (depth : Nat) :
    framesOf children depth =
      (pushedOf depth children).flatMap MailHtmlDepthFrame.below := by
  induction children with
  | nil => simp [framesOf, pushedOf]
  | cons child rest ih => rw [framesOf, pushedOf, List.flatMap_append, ih, frames_eq]

theorem forest_frames : Worklist.Forest MailHtmlDepthFrame.pushed MailHtmlDepthFrame.below := by
  intro frame
  rw [MailHtmlDepthFrame.below, MailHtmlDepthFrame.pushed, framesOf_eq]

/-! ### Frames and places -/

theorem parentFrames_eq (fragment : List ParsedNode) :
    parentFrames fragment = MailHtmlDepthFrame.below ⟨.fragment fragment, 0⟩ := rfl

/-- What a visit pushes is one or two steps further down. -/
theorem treeEdge_of_pushed {frame pushed : MailHtmlDepthFrame} (h : pushed ∈ frame.pushed) :
    ReflTransGen TreeEdge frame pushed := by
  obtain ⟨child, hchild, hpushed⟩ := mem_pushedOf.mp h
  have hedge : TreeEdge frame ⟨.child child, frame.depth + 1⟩ := .child hchild
  rw [pushedFor] at hpushed
  split at hpushed
  · simp only [List.mem_append, Option.mem_toList, Option.map_eq_some_iff,
      List.mem_singleton] at hpushed
    obtain ⟨content, hcontent, rfl⟩ | rfl := hpushed
    · exact (ReflTransGen.single hedge).tail (.content hcontent)
    · exact .single hedge
  · cases hpushed

theorem inTree_of_mem_parentFrames {fragment : List ParsedNode} {frame : MailHtmlDepthFrame}
    (h : frame ∈ parentFrames fragment) : InTree fragment frame := by
  rw [parentFrames_eq] at h
  induction forest_frames.mem_below_iff.mp h with
  | refl => exact .refl
  | tail hreach hpush ih =>
    exact (ih (forest_frames.mem_below_iff.mpr hreach)).trans (treeEdge_of_pushed hpush)

theorem pushed_closed {fragment : List ParsedNode} {frame pushed : MailHtmlDepthFrame}
    (h : frame ∈ parentFrames fragment) (hpush : pushed ∈ frame.pushed) :
    pushed ∈ parentFrames fragment :=
  forest_frames.mem_below_iff.mpr ((forest_frames.mem_below_iff.mp h).tail hpush)

/-- A place in the tree is a frame itself if it is a fragment, and is a child
    of a frame otherwise. -/
theorem place_of_inTree {fragment : List ParsedNode} {place : MailHtmlDepthFrame}
    (h : InTree fragment place) :
    (∃ childNodes, place.node = .fragment childNodes ∧ place ∈ parentFrames fragment) ∨
    ∃ frame ∈ parentFrames fragment, ∃ child ∈ getChildNodes frame.node,
      place = ⟨.child child, frame.depth + 1⟩ := by
  induction h with
  | refl => exact .inl ⟨fragment, rfl, List.mem_cons_self⟩
  | @tail parent place hreach hedge ih =>
    cases hedge with
    | @child _ node hnode =>
      obtain ⟨_, -, hparent⟩ | ⟨frame, hframe, child, hchild, rfl⟩ := ih
      · exact .inr ⟨parent, hparent, node, hnode, rfl⟩
      · -- a child with children is an element, so it is a frame
        have helement : child.isElementNode = true := by
          cases child <;> simp_all [getChildNodes, ParsedNode.childNodes, ParsedNode.isElementNode]
        have hpush : ⟨.child child, frame.depth + 1⟩ ∈ frame.pushed :=
          mem_pushedOf.mpr ⟨child, hchild, by simp [pushedFor, helement]⟩
        exact .inr ⟨_, pushed_closed hframe hpush, node, hnode, rfl⟩
    | @content node depth content hcontent =>
      obtain ⟨_, hnode, -⟩ | ⟨frame, hframe, child, hchild, heq⟩ := ih
      · cases hnode
      · cases heq
        have helement : node.isElementNode = true := isElementNode_of_template hcontent
        have hpush : ⟨.fragment content, frame.depth + 1 + 1⟩ ∈ frame.pushed :=
          mem_pushedOf.mpr ⟨node, hchild, by simp [pushedFor, helement, hcontent]⟩
        exact .inl ⟨content, rfl, pushed_closed hframe hpush⟩

/-- Some visit of the loop raises exactly when the tree has a place below the limit. -/
theorem raises_iff_deep {fragment : List ParsedNode} :
    (∃ frame ∈ parentFrames fragment, frame.Raises) ↔
      ∃ place, InTree fragment place ∧ finalTreeDepth < place.depth := by
  constructor
  · rintro ⟨frame, hframe, child, hchild, hdepth | ⟨hcontent, hdepth⟩⟩
    · have hin : InTree fragment ⟨.child child, frame.depth + 1⟩ :=
        (inTree_of_mem_parentFrames hframe).tail (.child hchild)
      exact ⟨_, hin, hdepth⟩
    · obtain ⟨content, hcontent⟩ := Option.isSome_iff_exists.mp hcontent
      have hin : InTree fragment ⟨.fragment content, frame.depth + 1 + 1⟩ :=
        ((inTree_of_mem_parentFrames hframe).tail (.child hchild)).tail (.content hcontent)
      exact ⟨_, hin, hdepth⟩
  · rintro ⟨place, hin, hdepth⟩
    -- the last step to the place is a child edge or a content edge
    obtain hroot | ⟨before, hbefore, hedge⟩ := hin.cases_tail
    · subst hroot
      exact absurd hdepth (Nat.not_lt_zero _)
    · cases hedge with
      | child hnode =>
        obtain ⟨_, hfragment, -⟩ | ⟨frame, hframe, child, hchild, heq⟩ :=
          place_of_inTree hin
        · cases hfragment
        · rw [heq] at hdepth
          exact ⟨frame, hframe, child, hchild, .inl hdepth⟩
      | @content node depth content hcontent =>
        obtain ⟨_, hnode, -⟩ | ⟨frame, hframe, child, hchild, heq⟩ :=
          place_of_inTree hbefore
        · cases hnode
        · cases heq
          exact ⟨frame, hframe, node, hchild, .inr ⟨by simp [hcontent], hdepth⟩⟩

/-- A child frame is on the list exactly because its node is an element. -/
theorem mem_parentFrames_iff {fragment : List ParsedNode} {frame : MailHtmlDepthFrame} :
    frame ∈ parentFrames fragment ↔ InTree fragment frame ∧ frame.IsParent := by
  constructor
  · intro hframe
    refine ⟨inTree_of_mem_parentFrames hframe, ?_⟩
    rw [parentFrames_eq] at hframe
    obtain heq | ⟨before, -, hpush⟩ := (forest_frames.mem_below_iff.mp hframe).cases_tail
    · subst heq
      intro node hnode
      cases hnode
    · obtain ⟨child, -, hpushed⟩ := mem_pushedOf.mp hpush
      intro node hnode
      rw [pushedFor] at hpushed
      split at hpushed
      next helement =>
        simp only [List.mem_append, Option.mem_toList, Option.map_eq_some_iff,
          List.mem_singleton] at hpushed
        obtain ⟨content, -, rfl⟩ | rfl := hpushed
        · cases hnode
        · cases hnode
          exact helement
      next => cases hpushed
  · rintro ⟨hin, hparent⟩
    obtain ⟨_, -, hframe⟩ | ⟨before, hbefore, child, hchild, rfl⟩ := place_of_inTree hin
    · exact hframe
    · exact pushed_closed hbefore
        (mem_pushedOf.mpr ⟨child, hchild, by simp [pushedFor, hparent child rfl]⟩)

/-- **The depth check is exact.** Given enough rounds the loop ends, with the
    error exactly when a place of the tree is below the limit; the frames it
    visits are parents of the tree, and none is visited twice. -/
theorem validateFinalTreeDepth_exact (fragment : List ParsedNode) :
    (∀ rounds, (parentFrames fragment).length < rounds →
      ∃ outcome, validateFinalTreeDepth rounds fragment = some outcome ∧
        (outcome = .error finalTreeDepthExhausted ↔
          ∃ place, InTree fragment place ∧ finalTreeDepth < place.depth) ∧
        (outcome = .ok () ↔
          ∀ place, InTree fragment place → place.depth ≤ finalTreeDepth)) ∧
    (∀ rounds, (Worklist.visited visitFrame rounds [⟨.fragment fragment, 0⟩]).Subperm
      (parentFrames fragment)) ∧
    ∀ frame, frame ∈ parentFrames fragment ↔ InTree fragment frame ∧ frame.IsParent := by
  have hstack : [⟨.fragment fragment, 0⟩].flatMap MailHtmlDepthFrame.below =
      parentFrames fragment := by
    rw [List.flatMap_singleton, parentFrames_eq]
  refine ⟨?_, ?_, fun _ => mem_parentFrames_iff⟩
  · intro rounds hrounds
    rw [← hstack] at hrounds
    have hdeep := @raises_iff_deep fragment
    obtain ⟨hraise, hrun⟩ | ⟨hnone, hrun⟩ :=
      Worklist.run_eq visits_visitFrame forest_frames hrounds
    · rw [hstack] at hraise
      obtain ⟨place, hin, hdepth⟩ := hdeep.mp hraise
      refine ⟨_, hrun, ⟨fun _ => ⟨place, hin, hdepth⟩, fun _ => rfl⟩, ?_⟩
      exact ⟨fun h => (nomatch h), fun hall =>
        absurd hdepth (Nat.not_lt_of_le (hall place hin))⟩
    · rw [hstack] at hnone
      have hall : ∀ place, InTree fragment place → place.depth ≤ finalTreeDepth := by
        intro place hin
        by_contra hdepth
        obtain ⟨frame, hframe, hraise⟩ :=
          hdeep.mpr ⟨place, hin, Nat.lt_of_not_le hdepth⟩
        exact hnone frame hframe hraise
      refine ⟨_, hrun, ⟨fun h => (nomatch h), ?_⟩, fun _ => hall, fun _ => rfl⟩
      rintro ⟨place, hin, hdepth⟩
      exact absurd hdepth (Nat.not_lt_of_le (hall place hin))
  · intro rounds
    rw [← hstack]
    exact Worklist.visited_subperm visits_visitFrame forest_frames rounds _

example : validateFinalTreeDepth 5
    [.elementWithContent "template" [.text "a"] [.element "p" [.comment "b"]]] = some (.ok ()) :=
  rfl

end Umail
