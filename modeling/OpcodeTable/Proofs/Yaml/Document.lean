import OpcodeTable.Settings.File

/-!
# Aliases

An alias is read as the number of the node with its anchor. That node has been read before the
alias, so there is always a node with this number.
-/

namespace OpcodeTable.Yaml

/-- The numbers of the aliases are those of nodes. -/
def Resolves (targets : Array Node) (nodes : List Node) : Prop :=
  ∀ node ∈ nodes, ∀ number, node.kind = .aliasTo number → number < targets.size

namespace DocumentReader

variable {r : DocumentReader} {event : Event} {kind : NodeKind}

/-- The numbers that a reader knows are those of nodes that it has read. -/
structure Sound (r : DocumentReader) : Prop where
  anchorCount_le : r.anchorCount ≤ r.targets.size
  anchor_lt : ∀ name number, r.anchors.lookup name = some number → number < r.targets.size
  resolves : Resolves r.targets r.nodes

theorem size_targets_le_bind (r : DocumentReader) (node : Node) (anchor : Option String) :
    r.targets.size ≤ (r.bind node anchor).targets.size := by
  cases anchor with
  | none => exact Nat.le_refl _
  | some name =>
    dsimp only [bind]
    split
    · exact Nat.le_of_eq (Array.size_set _).symm
    · rw [Array.size_push]
      exact Nat.le_succ _

/-- The number that an anchor is given is the one that its node has. -/
theorem anchorCount_lt_bind (h : r.anchorCount ≤ r.targets.size) (node : Node) (name : String) :
    r.anchorCount < (r.bind node (some name)).targets.size := by
  dsimp only [bind]
  split
  · next hlt => rwa [Array.size_set]
  · rw [Array.size_push]
    exact Nat.lt_succ_of_le h

theorem Sound.bind (h : r.Sound) (node : Node) (anchor : Option String) :
    (r.bind node anchor).Sound := by
  have hle := size_targets_le_bind r node anchor
  have hresolves : Resolves (r.bind node anchor).targets (r.bind node anchor).nodes := by
    intro other hother number hkind
    refine Nat.lt_of_lt_of_le (h.resolves other ?_ number hkind) hle
    cases anchor <;> exact hother
  cases anchor with
  | none => exact h
  | some name =>
    have hlt := anchorCount_lt_bind h.anchorCount_le node name
    refine ⟨?_, ?_, hresolves⟩
    · change (if (r.anchors.lookup name).isSome then r.anchorCount else r.anchorCount + 1) ≤ _
      split
      · exact Nat.le_of_lt hlt
      · exact hlt
    · intro other number hother
      change ((name, r.anchorCount) :: r.anchors).lookup other = some number at hother
      rw [List.lookup_cons] at hother
      split at hother
      · exact Option.some.inj hother ▸ hlt
      · exact Nat.lt_of_lt_of_le (h.anchor_lt other number hother) hle

theorem Sound.add (h : r.Sound)
    (hkind : ∀ number, kind = .aliasTo number → number < r.targets.size) :
    (r.add event kind).Sound := by
  have hbind := h.bind ⟨kind, event.mark, event.tag⟩ event.anchor
  refine ⟨hbind.anchorCount_le, hbind.anchor_lt, ?_⟩
  have hnodes : (r.bind ⟨kind, event.mark, event.tag⟩ event.anchor).nodes = r.nodes := by
    cases event.anchor <;> rfl
  intro node hnode number hnumber
  rcases List.mem_cons.mp hnode with rfl | hnode
  · exact Nat.lt_of_lt_of_le (hkind number hnumber) (size_targets_le_bind _ _ _)
  · exact hbind.resolves node (hnodes ▸ hnode) number hnumber

theorem Sound.resolves_document (h : r.Sound) (fault : Option Fault) (hasMore : Bool) :
    Resolves (r.document fault hasMore).targets (r.document fault hasMore).nodes :=
  fun node hnode => h.resolves node (List.mem_reverse.mp hnode)

/-- Reading on leaves what has been read as it is, and adds aliases of known anchors only. -/
theorem Sound.resolves_read (h : r.Sound) (fault : Option Fault) (events : List Event) :
    Resolves (r.read fault events).targets (r.read fault events).nodes := by
  induction events generalizing r with
  | nil => exact h.resolves_document _ _
  | cons event rest ih =>
    rw [read]
    split
    · exact ih h
    · exact h.resolves_document _ _
    · exact h.resolves_document _ _
    · next name _ =>
      split
      · next number hnumber =>
        refine ih (h.add ?_)
        rintro _ ⟨⟩
        exact h.anchor_lt name number hnumber
      · exact h.resolves_document _ _
    all_goals exact ih (h.add (by simp))

end DocumentReader

/-- Every alias of a document refers to a node. -/
theorem resolves_ofBytes (bytes : ByteArray) :
    Resolves (Document.ofBytes bytes).targets (Document.ofBytes bytes).nodes :=
  DocumentReader.Sound.resolves_read ⟨Nat.le_refl 0, by simp, by simp [Resolves]⟩ _ _

end OpcodeTable.Yaml

namespace OpcodeTable.Settings

open Yaml

/-- What a node of a document stands for is always found. -/
theorem exists_target_eq {bytes : ByteArray} {node : Node}
    (h : node ∈ (Document.ofBytes bytes).nodes) :
    ∃ found, target (Document.ofBytes bytes).targets node = .ok found := by
  unfold target
  split
  · next number hnumber =>
    rw [Array.getElem?_eq_getElem (resolves_ofBytes bytes node h number hnumber)]
    exact ⟨_, rfl⟩
  · exact ⟨node, rfl⟩

end OpcodeTable.Settings
