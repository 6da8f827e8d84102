import CrateDocs.Proofs.Survey.Visits
import CrateDocs.Survey.Mentions
import CrateDocs.Survey.Trace
import Mathlib.Data.List.Flatten

/-!
# Pruning cuts subtrees

A trace lists the tree of visits in preorder. Pruning a kind of node takes away what lies below the
nodes of this kind and leaves all else in its place, so that a trace with more kinds pruned is a
subsequence of one with fewer.
-/

namespace CrateDocs

def Visit.entry : Visit → TraceEntry
  | .payload p => .ofPayload p
  | .typeExpr t => .ofType t
  | .path p => .ofPath p
  | .args a => .ofArgs a
  | .generics g => .ofGenerics g
  | .param p => .ofParam p
  | .bound b => .ofBound b

/-- Only mentions are entered as identifiers. -/
theorem Visit.kind_entry_ne_id (visit : Visit) : visit.entry.kind ≠ .id := by
  cases visit with
  | args args => cases args <;> simp [entry, TraceEntry.ofArgs]
  | bound bound => cases bound <;> simp [entry, TraceEntry.ofBound]
  | _ => simp [entry, TraceEntry.ofPayload, TraceEntry.ofType, TraceEntry.ofPath,
      TraceEntry.ofGenerics, TraceEntry.ofParam]

namespace VisitTree

mutual

/-- The entries of a tree, each node before the nodes below it. -/
def preorder : VisitTree → List TraceEntry
  | .mention id => [.ofId id]
  | .node visit below => visit.entry :: preorderList below

def preorderList : List VisitTree → List TraceEntry
  | [] => []
  | tree :: trees => tree.preorder ++ preorderList trees

end

mutual

/-- The tree without what lies below a node of a pruned kind. -/
def prune (pruned : NodeKind → Bool) : VisitTree → VisitTree
  | .mention id => .mention id
  | .node visit below =>
    .node visit (if pruned visit.entry.kind then [] else pruneList pruned below)

def pruneList (pruned : NodeKind → Bool) : List VisitTree → List VisitTree
  | [] => []
  | tree :: trees => tree.prune pruned :: pruneList pruned trees

end

variable {pruned : NodeKind → Bool} {visit : Visit} {below : List VisitTree}

@[simp] theorem preorder_mention (id : ItemId) : (mention id).preorder = [.ofId id] := by
  rw [preorder]

@[simp] theorem preorderList_eq_flatMap (trees : List VisitTree) :
    preorderList trees = trees.flatMap preorder := by
  induction trees with
  | nil => rfl
  | cons tree trees ih => rw [preorderList, ih, List.flatMap_cons]

@[simp] theorem preorder_node :
    (node visit below).preorder = visit.entry :: below.flatMap preorder := by
  rw [preorder, preorderList_eq_flatMap]

@[simp] theorem prune_mention (id : ItemId) : (mention id).prune pruned = mention id := by
  rw [prune]

@[simp] theorem pruneList_eq_map (trees : List VisitTree) :
    pruneList pruned trees = trees.map (prune pruned) := by
  induction trees with
  | nil => rfl
  | cons tree trees ih => rw [pruneList, ih, List.map_cons]

theorem prune_node_of_pruned (h : pruned visit.entry.kind = true) :
    (node visit below).prune pruned = node visit [] := by
  rw [prune, if_pos h]

theorem prune_node_of_not_pruned (h : ¬ pruned visit.entry.kind = true) :
    (node visit below).prune pruned = node visit (below.map (prune pruned)) := by
  rw [prune, if_neg h, pruneList_eq_map]

/-- A tree is left as it is when nothing is pruned. -/
theorem prune_none (tree : VisitTree) : tree.prune (fun _ => false) = tree := by
  induction tree with
  | mention id => rw [prune_mention]
  | node visit below ih =>
    have hbelow : below.map (prune fun _ => false) = below := by
      rw [List.map_congr_left ih, List.map_id']
    rw [prune_node_of_not_pruned Bool.false_ne_true, hbelow]

/-- Mentions have nothing below them, so that it does not matter whether they are pruned. -/
theorem prune_congr {fewer more : NodeKind → Bool} (h : ∀ kind ≠ .id, more kind = fewer kind)
    (tree : VisitTree) : tree.prune more = tree.prune fewer := by
  induction tree with
  | mention id => rw [prune_mention, prune_mention]
  | node visit below ih =>
    have hkind := h visit.entry.kind visit.kind_entry_ne_id
    rw [prune, prune, hkind, pruneList_eq_map, pruneList_eq_map, List.map_congr_left ih]

/-- Pruning more kinds only takes entries away. -/
theorem preorder_prune_sublist {fewer more : NodeKind → Bool}
    (h : ∀ kind, fewer kind = true → more kind = true) (tree : VisitTree) :
    (tree.prune more).preorder.Sublist (tree.prune fewer).preorder := by
  induction tree with
  | mention id => rw [prune_mention, prune_mention]
  | node visit below ih =>
    by_cases hmore : more visit.entry.kind = true
    · -- Nothing is left below the visit.
      rw [prune_node_of_pruned hmore, preorder_node, List.flatMap_nil]
      by_cases hfewer : fewer visit.entry.kind = true
      · rw [prune_node_of_pruned hfewer, preorder_node, List.flatMap_nil]
      · rw [prune_node_of_not_pruned hfewer, preorder_node]
        exact (List.nil_sublist _).cons_cons _
    · have hfewer : ¬ fewer visit.entry.kind = true := fun hfewer => hmore (h _ hfewer)
      rw [prune_node_of_not_pruned hmore, prune_node_of_not_pruned hfewer, preorder_node,
        preorder_node, List.flatMap_map, List.flatMap_map]
      exact (List.Sublist.flatMap_right below ih).cons_cons _

/-- A trace lists the pruned tree. -/
theorem gather_trace (tree : VisitTree) :
    tree.gather (Survey.trace pruned) = (tree.prune pruned).preorder := by
  induction tree with
  | mention id => simp [Survey.trace, TraceEntry.above]
  | node visit below ih =>
    have hvisit (entries : List TraceEntry) :
        (Survey.trace pruned).visit visit entries = visit.entry.above pruned entries := by
      cases visit <;> rfl
    rw [gather_node, hvisit, TraceEntry.above]
    by_cases h : pruned visit.entry.kind = true
    · rw [prune_node_of_pruned h, preorder_node, if_pos h, List.flatMap_nil]
    · rw [prune_node_of_not_pruned h, preorder_node, if_neg h, List.flatMap_map,
        List.flatMap_congr ih]

/-- The identifiers that are entered are the mentioned ones. -/
theorem filter_preorder (tree : VisitTree) :
    tree.preorder.filter (·.kind = .id) = (tree.gather Survey.mentions).map .ofId := by
  induction tree with
  | mention id => simp [Survey.mentions, TraceEntry.ofId]
  | node visit below ih =>
    have hvisit (ids : List ItemId) : Survey.mentions.visit visit ids = ids := by
      cases visit <;> rfl
    rw [preorder_node, List.filter_cons_of_neg (by simp [visit.kind_entry_ne_id]), gather_node,
      hvisit, List.map_flatMap, List.filter_flatMap]
    exact List.flatMap_congr ih

end VisitTree

namespace Payload

variable {payload : Payload} {tree : VisitTree}

theorem trace_eq_preorder (htree : payload.gather Survey.visits = [tree])
    (pruned : NodeKind → Bool) : payload.trace pruned = (tree.prune pruned).preorder := by
  have hgather := payload.flatMap_gather_visits (Survey.trace pruned)
  rw [htree, List.flatMap_singleton, VisitTree.gather_trace] at hgather
  exact hgather.symm

theorem mentions_eq_gather (htree : payload.gather Survey.visits = [tree]) :
    payload.mentions = tree.gather Survey.mentions := by
  have hgather := payload.flatMap_gather_visits Survey.mentions
  rw [htree, List.flatMap_singleton] at hgather
  exact hgather.symm

/-- The trace of a payload that does not look below the nodes whose kind has one of some names. A
name that no kind has is of no account. -/
def traceBut (payload : Payload) (names : String → Bool) : List TraceEntry :=
  payload.trace fun kind => names kind.name

/-- Whether a tree of visits determines the traces of a payload. They list the tree with the pruned
subtrees cut off, so that pruning more names leaves a subsequence. The identifiers in the complete
trace are those that the payload mentions. Nothing changes when identifiers are pruned, or a name
that no kind has. -/
structure TracedBy (payload : Payload) (tree : VisitTree) : Prop where
  trace_none : payload.traceBut (fun _ => false) = tree.preorder
  trace_eq : ∀ names, payload.traceBut names =
    (tree.prune fun kind => names kind.name).preorder
  sublist : ∀ fewer more : String → Bool, (∀ name, fewer name = true → more name = true) →
    (payload.traceBut more).Sublist (payload.traceBut fewer)
  filter_id : (payload.traceBut fun _ => false).filter (·.kind = .id) =
    payload.mentions.map .ofId
  trace_insert : ∀ names name, name = NodeKind.id.name ∨ NodeKind.ofName? name = none →
    (payload.traceBut fun other => names other || other == name) = payload.traceBut names

theorem tracedBy (htree : payload.gather Survey.visits = [tree]) : payload.TracedBy tree where
  trace_none := by
    rw [traceBut, trace_eq_preorder htree, VisitTree.prune_none]
  trace_eq names := trace_eq_preorder htree _
  sublist fewer more h := by
    rw [traceBut, traceBut, trace_eq_preorder htree, trace_eq_preorder htree]
    exact VisitTree.preorder_prune_sublist (fun kind => h kind.name) tree
  filter_id := by
    rw [traceBut, trace_eq_preorder htree, VisitTree.prune_none, VisitTree.filter_preorder,
      mentions_eq_gather htree]
  trace_insert names name hname := by
    have hother (kind : NodeKind) (hkind : kind ≠ .id) :
        (names kind.name || kind.name == name) = names kind.name := by
      have hne : kind.name ≠ name := by
        rintro rfl
        rcases hname with hid | hnone
        · have hsame := NodeKind.ofName?_name kind
          rw [hid, NodeKind.ofName?_name] at hsame
          exact hkind (Option.some.inj hsame).symm
        · rw [NodeKind.ofName?_name] at hnone
          cases hnone
      rw [beq_false_of_ne hne, Bool.or_false]
    rw [traceBut, traceBut, trace_eq_preorder htree, trace_eq_preorder htree,
      VisitTree.prune_congr hother]

/-- All traces of a payload come from the one tree of its visits, whatever is pruned. -/
theorem exists_tracedBy (payload : Payload) :
    ∃ tree, payload.gather Survey.visits = [tree] ∧ payload.TracedBy tree := by
  obtain ⟨below, htree⟩ := payload.exists_gather_visits
  exact ⟨_, htree, tracedBy htree⟩

end Payload

end CrateDocs
