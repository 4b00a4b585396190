import Umail.Contract.MessageThreading
import Mathlib.Data.List.Infix

/-! # The References of a reply

  `buildOutboundReferences` of `packages/api-contract/src/message-threading.ts`:
  the distinct references of the parent, then the parent itself, without the
  oldest ids that do not fit into the byte limit.

  A parent that lists itself among its references keeps the place it has
  there, so the chain ends with the parent exactly when nothing new follows it.
-/

namespace Umail

/-! ### Building and pruning -/

def REFERENCES_BYTE_LIMIT : Nat := 2048

def utf8ByteLength (value : String) : Nat := value.utf8ByteSize

/-- Drops the oldest id while more than one is left and the rest is too long. -/
def pruneReferences (ids : List NormalizedRfcMessageId) (maxBytes : Nat) :
    List NormalizedRfcMessageId :=
  match ids with
  | [] => []
  | [id] => [id]
  | id :: next :: rest =>
    if maxBytes < utf8ByteLength (joinRfcMessageIds (id :: next :: rest)) then
      pruneReferences (next :: rest) maxBytes
    else id :: next :: rest

/-- The set `seen` of the source holds the parent's references. -/
def buildOutboundReferences (parentRfcId : NormalizedRfcMessageId)
    (parentReferences : List NormalizedRfcMessageId) : List NormalizedRfcMessageId :=
  let chain := keepFirst id [] parentReferences
  let chain := if parentRfcId ∈ parentReferences then chain else chain ++ [parentRfcId]
  pruneReferences chain REFERENCES_BYTE_LIMIT

/-! ### Pruning -/

section pruning
variable {ids : List NormalizedRfcMessageId} {maxBytes : Nat}

theorem pruneReferences_suffix : pruneReferences ids maxBytes <:+ ids := by
  fun_induction pruneReferences ids maxBytes with
  | case1 => exact List.suffix_rfl
  | case2 id => exact List.suffix_rfl
  | case3 id next rest hlong ih => exact ih.trans (List.suffix_cons id _)
  | case4 id next rest hfits => exact List.suffix_rfl

/-- The newest id is never dropped. -/
theorem pruneReferences_getLast? : (pruneReferences ids maxBytes).getLast? = ids.getLast? := by
  fun_induction pruneReferences ids maxBytes with
  | case1 => rfl
  | case2 id => rfl
  | case3 id next rest hlong ih => rw [ih, List.getLast?_cons_cons]
  | case4 id next rest hfits => rfl

theorem pruneReferences_fits :
    (pruneReferences ids maxBytes).length ≤ 1 ∨
      utf8ByteLength (joinRfcMessageIds (pruneReferences ids maxBytes)) ≤ maxBytes := by
  fun_induction pruneReferences ids maxBytes with
  | case1 => exact .inl (Nat.zero_le _)
  | case2 id => exact .inl (le_refl _)
  | case3 id next rest hlong ih => exact ih
  | case4 id next rest hfits => exact .inr (Nat.le_of_not_lt hfits)

theorem pruneReferences_of_fits (h : utf8ByteLength (joinRfcMessageIds ids) ≤ maxBytes) :
    pruneReferences ids maxBytes = ids := by
  fun_cases pruneReferences ids maxBytes with
  | case1 => rfl
  | case2 id => rfl
  | case3 id next rest hlong => exact absurd h (Nat.not_le_of_lt hlong)
  | case4 id next rest hfits => rfl

end pruning

/-! ### The place of the parent -/

section chain
variable {parent : NormalizedRfcMessageId} {references : List NormalizedRfcMessageId}

/-- Whatever follows the parent among its own references is a repetition. -/
def NothingNewAfter (parent : NormalizedRfcMessageId) (references : List NormalizedRfcMessageId) :
    Prop :=
  ∀ before after, references = before ++ parent :: after → parent ∉ before →
    ∀ id ∈ after, id = parent ∨ id ∈ before

/-- A chain that can be sent with a reply to `parent`. -/
structure UsableReferences (parent : NormalizedRfcMessageId)
    (references chain : List NormalizedRfcMessageId) : Prop where
  distinct : chain.Nodup
  /-- The chain ends with the parent. -/
  last : chain.getLast? = some parent
  sources : ∀ id ∈ chain, id ∈ references ∨ id = parent
  /-- The kept references stand in their original order. -/
  ordered : (chain.filter (· ≠ parent)).Sublist references
  /-- No reference is kept while a newer one is dropped. -/
  newest : chain.filter (· ≠ parent) <:+ (keepFirst id [] references).filter (· ≠ parent)
  fits : chain.length = 1 ∨ utf8ByteLength (joinRfcMessageIds chain) ≤ REFERENCES_BYTE_LIMIT
  /-- Nothing is dropped without need. -/
  complete : utf8ByteLength (joinRfcMessageIds
      ((keepFirst id [] references).filter (· ≠ parent) ++ [parent])) ≤
        REFERENCES_BYTE_LIMIT →
    ∀ id ∈ references, id ∈ chain

/-- The chain before it is pruned. -/
def referenceChain (parent : NormalizedRfcMessageId) (references : List NormalizedRfcMessageId) :
    List NormalizedRfcMessageId :=
  if parent ∈ references then keepFirst id [] references
  else keepFirst id [] references ++ [parent]

theorem buildOutboundReferences_eq : buildOutboundReferences parent references =
    pruneReferences (referenceChain parent references) REFERENCES_BYTE_LIMIT := rfl

theorem referenceChain_nodup : (referenceChain parent references).Nodup := by
  unfold referenceChain
  split
  · exact keepFirst_id_nodup references
  · next hnone =>
    apply (keepFirst_id_nodup references).append (List.nodup_singleton _)
    intro id hid hlast
    obtain rfl := List.mem_singleton.mp hlast
    exact hnone (mem_keepFirst_id.mp hid)

theorem mem_referenceChain {id : NormalizedRfcMessageId} :
    id ∈ referenceChain parent references ↔ id ∈ references ∨ id = parent := by
  unfold referenceChain
  split
  · next hmem =>
    rw [mem_keepFirst_id]
    exact ⟨.inl, fun h => h.elim (fun h => h) fun heq => heq ▸ hmem⟩
  · rw [List.mem_append, mem_keepFirst_id, List.mem_singleton]

/-- Without the parent the chain is the list of the distinct references. -/
theorem referenceChain_filter : (referenceChain parent references).filter (· ≠ parent) =
    (keepFirst id [] references).filter (· ≠ parent) := by
  unfold referenceChain
  split
  · rfl
  · simp

/-- Where the last item is, when it occurs only once. -/
theorem getLast?_append_cons {α : Type} {x : α} {xs ys : List α} (h : x ∉ ys) :
    (xs ++ x :: ys).getLast? = some x ↔ ys = [] := by
  rw [List.getLast?_append_of_ne_nil _ (List.cons_ne_nil _ _)]
  cases ys with
  | nil => simp
  | cons y ys =>
    rw [List.getLast?_cons_cons]
    refine iff_of_false ?_ (List.cons_ne_nil _ _)
    intro hlast
    exact h (List.mem_of_getLast? hlast)

/-- The distinct references, cut where the parent occurs first. -/
theorem keepFirst_cut {before after : List NormalizedRfcMessageId} (hbefore : parent ∉ before) :
    (keepFirst id [] (before ++ parent :: after)).getLast? = some parent ↔
      ∀ id ∈ after, id = parent ∨ id ∈ before := by
  have hseen : ∀ x, x ∈ ((keepFirst id [] before).map id).reverse ++ [] ↔ x ∈ before := by
    intro x
    rw [List.append_nil, List.mem_reverse, List.map_id, mem_keepFirst_id]
  have hfirst : id parent ∉ ((keepFirst id [] before).map id).reverse ++ [] :=
    fun h => hbefore ((hseen parent).mp h)
  rw [keepFirst_append, keepFirst, if_neg hfirst, getLast?_append_cons, keepFirst_eq_nil]
  · apply forall₂_congr
    intro id hid
    rw [List.mem_cons, hseen]
    rfl
  · intro hmem
    exact (mem_keepFirst hmem).2 List.mem_cons_self

/-- The chain ends with the parent exactly when nothing new follows it. -/
theorem referenceChain_last : (referenceChain parent references).getLast? = some parent ↔
    NothingNewAfter parent references := by
  unfold referenceChain
  split
  · next hmem =>
    constructor
    · intro hlast before after heq hbefore
      exact (keepFirst_cut hbefore).mp (heq ▸ hlast)
    · intro hnothing
      obtain ⟨before, after, heq, hbefore⟩ := List.eq_append_cons_of_mem hmem
      rw [heq]
      exact (keepFirst_cut hbefore).mpr (hnothing before after heq hbefore)
  · next hnone =>
    rw [List.getLast?_concat]
    refine iff_of_true rfl ?_
    intro before after heq
    exact absurd (by simp [heq]) hnone

/-- A chain that ends with the parent has the other references before it. -/
theorem referenceChain_of_last (h : (referenceChain parent references).getLast? = some parent) :
    (keepFirst id [] references).filter (· ≠ parent) ++ [parent] =
      referenceChain parent references := by
  obtain ⟨front, hfront⟩ := List.getLast?_eq_some_iff.mp h
  have hnodup : (front ++ [parent]).Nodup := hfront ▸ referenceChain_nodup
  have hout : parent ∉ front := fun hmem => (List.disjoint_of_nodup_append hnodup) hmem (by simp)
  have hkeep : front.filter (· ≠ parent) = front := by
    apply List.filter_eq_self.mpr
    intro id hid
    simpa using ne_of_mem_of_not_mem hid hout
  rw [← referenceChain_filter, hfront, List.filter_append, hkeep]
  simp

/-- **References.** The chain of a reply is usable exactly when nothing new
    follows the parent among its own references. -/
theorem buildOutboundReferences_usable (parent : NormalizedRfcMessageId)
    (references : List NormalizedRfcMessageId) :
    UsableReferences parent references (buildOutboundReferences parent references) ↔
      NothingNewAfter parent references := by
  rw [buildOutboundReferences_eq]
  have hsuffix : pruneReferences (referenceChain parent references) REFERENCES_BYTE_LIMIT <:+
      referenceChain parent references := pruneReferences_suffix
  constructor
  · intro h
    apply referenceChain_last.mp
    rw [← pruneReferences_getLast?]
    exact h.last
  · intro hnothing
    have hlast := referenceChain_last.mpr hnothing
    have hpruned : (pruneReferences (referenceChain parent references)
        REFERENCES_BYTE_LIMIT).getLast? = some parent := pruneReferences_getLast?.trans hlast
    -- what is pruned is taken from the old end
    have hnewest : (pruneReferences (referenceChain parent references)
        REFERENCES_BYTE_LIMIT).filter (· ≠ parent) <:+
          (keepFirst id [] references).filter (· ≠ parent) := by
      rw [← referenceChain_filter]
      exact hsuffix.filter _
    refine ⟨hsuffix.sublist.nodup referenceChain_nodup, hpruned, ?_, ?_, hnewest, ?_, ?_⟩
    · intro id hid
      exact mem_referenceChain.mp (hsuffix.mem hid)
    · exact hnewest.sublist.trans (List.filter_sublist.trans (keepFirst_sublist id [] references))
    · -- either the parent alone is left, or the chain fits
      rcases pruneReferences_fits with hshort | hfits
      · left
        exact le_antisymm hshort (List.length_pos_of_mem (List.mem_of_getLast? hpruned))
      · exact .inr hfits
    · intro hfits id hid
      rw [referenceChain_of_last hlast] at hfits
      rw [pruneReferences_of_fits hfits]
      exact mem_referenceChain.mpr (.inl hid)

end chain

namespace Sample

def parentId : NormalizedRfcMessageId := ⟨"<p@x>", by decide⟩

def otherId : NormalizedRfcMessageId := ⟨"<q@x>", by decide⟩

end Sample

section sample
open Sample

/-- A parent that lists itself before another message is not the last id of
    the chain. -/
theorem references_end_with_other :
    buildOutboundReferences parentId [parentId, otherId] = [parentId, otherId] ∧
      ¬ UsableReferences parentId [parentId, otherId]
        (buildOutboundReferences parentId [parentId, otherId]) := by
  have hchain : buildOutboundReferences parentId [parentId, otherId] = [parentId, otherId] := by
    decide
  refine ⟨hchain, ?_⟩
  intro h
  have hlast := h.last
  rw [hchain] at hlast
  exact absurd (Option.some.inj hlast) (by decide)

end sample

end Umail
