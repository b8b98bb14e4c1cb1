import OpcodeTable.Yaml.Event
import OpcodeTable.Yaml.Tokens

/-!
# The events of a document

Goal after goal is reached until none is left or the first fault. Some events take no token, but
only a few can follow one another: a measure that counts each token three times, and each goal with
a weight of its own, goes down with every event.
-/

namespace OpcodeTable.Yaml

/-- How many more events there can be on the way to a goal than on the way to the goals that it
leads to, when no token is read. -/
@[grind =] def Goal.weight : Goal → Nat
  | .document isFirst => if isFirst then 2 else 0
  | .documentContent => 1
  | .documentEnd => 1
  | .blockNode => 0
  | .blockSequence _ => 0
  | .indentlessSequence => 1
  | .blockKey _ => 0
  | .blockValue _ => 1
  | .flowSequence _ _ => 0
  | .pairKey => 0
  | .pairValue => 2
  | .pairEnd => 1
  | .flowKey _ _ => 0
  | .flowValue _ => 1
  | .flowNoValue _ => 1

namespace EventReader

variable {r : EventReader}

/-! ## The measure -/

/-- It goes down with every event, so no more events than this can follow. -/
def size (r : EventReader) : Nat :=
  3 * r.tokens.length + r.goals.foldr (fun goal n => goal.weight + n) 0

@[grind =] theorem size_aim (r : EventReader) (goal : Goal) :
    (r.aim goal).size = r.size + goal.weight := by
  simp only [size, aim, List.foldr_cons]
  omega

@[grind =] theorem skip_aim (r : EventReader) (goal : Goal) :
    (r.aim goal).skip = r.skip.aim goal :=
  rfl

/-- A token that can be seen can be taken. -/
theorem gives_peek (r : EventReader) : Gives r.peek fun _ => r.skip.size + 3 = r.size := by
  unfold peek
  split
  · exact gives_error none
  · next h =>
    refine gives_ok ?_
    simp only [size, skip, h, List.tail_cons, List.length_cons]
    omega

/-! ## Nodes -/

theorem gives_absent {n : Nat} (mark : Mark) (h : r.size < n) :
    Gives (r.absent mark) (·.2.size < n) :=
  gives_ok h

theorem gives_readAnchorProperty (p : Properties) (r : EventReader) :
    Gives (readAnchorProperty p r) fun a => a.2.size + 3 = r.size ∨ a = (p, r) := by
  refine (gives_peek r).bind fun t hskip => ?_
  split
  · exact gives_ok (.inl hskip)
  · exact gives_ok (.inr rfl)

theorem gives_readTagProperty (p : Properties) (r : EventReader) :
    Gives (readTagProperty p r) fun a => a.2.size + 3 = r.size ∨ a = (p, r) := by
  refine (gives_peek r).bind fun t hskip => ?_
  split
  · exact gives_ok (.inl hskip)
  · exact gives_ok (.inr rfl)

/-- Properties are read from tokens, or there are none. -/
theorem gives_readProperties (r : EventReader) :
    Gives r.readProperties fun a => a.2.size + 3 ≤ r.size ∨ a = ({}, r) := by
  refine (gives_readAnchorProperty _ _).bind fun ⟨p, r₁⟩ h₁ => ?_
  refine (gives_readTagProperty _ _).bind fun ⟨p', r₂⟩ h₂ => ?_
  have hread : r₂.size + 3 ≤ r.size ∨ (p', r₂) = ({}, r) := by
    rcases h₁ with h₁ | h₁
    · rcases h₂ with h₂ | h₂
      · exact .inl (by dsimp only at h₁ h₂; omega)
      · obtain ⟨-, rfl⟩ := Prod.mk.inj h₂
        exact .inl (Nat.le_of_eq h₁)
    · obtain ⟨rfl, rfl⟩ := Prod.mk.inj h₁
      exact h₂.imp_left Nat.le_of_eq
  refine gives_ite (fun hagain => ?_) fun _ => gives_ok hread
  refine (gives_readAnchorProperty _ _).mono fun ⟨p'', r₃⟩ h₃ => ?_
  rcases hread with hread | hread
  · rcases h₃ with h₃ | h₃
    · exact .inl (by dsimp only at h₃ ⊢; omega)
    · obtain ⟨-, rfl⟩ := Prod.mk.inj h₃
      exact .inl hread
  · obtain ⟨rfl, rfl⟩ := Prod.mk.inj hread
    simp at hagain

theorem gives_resolveTag (r : EventReader) (start : Mark) (tag : Option (String × String × Mark)) :
    Gives (r.resolveTag start tag) fun resolved => tag = none → resolved = none := by
  rintro resolved h rfl
  exact (Except.ok.inj h).symm

/-- A node takes a token, unless it is a sequence that is not indented. -/
theorem gives_node (isBlock mayBeIndentless : Bool) (r : EventReader) :
    Gives (r.node isBlock mayBeIndentless) fun a =>
      a.2.size + 3 ≤ r.size ∨ mayBeIndentless = true ∧ a.2.size ≤ r.size + 1 := by
  refine (gives_peek r).bind fun t hskip => ?_
  split
  · exact gives_ok (.inl (Nat.le_of_eq hskip))
  · refine (gives_readProperties r).bind fun ⟨p, r'⟩ hread => ?_
    have hle : r'.size ≤ r.size := by
      rcases hread with hread | hread
      · dsimp only at hread
        omega
      · obtain ⟨-, rfl⟩ := Prod.mk.inj hread
        exact Nat.le_refl _
    refine (gives_peek r').bind fun t' hskip' => ?_
    refine (gives_resolveTag r' _ p.tag).bind fun tag htag => ?_
    dsimp only
    split
    · exact gives_ok (.inl (by grind))
    · exact gives_ok (.inl (by grind))
    · exact gives_ok (.inl (by grind))
    · exact gives_ok (.inl (by grind))
    · exact gives_ok (.inl (by grind))
    · refine gives_ite (fun hindentless => gives_ok (.inr ⟨by simp_all, by grind⟩)) fun _ => ?_
      refine gives_ite (fun hsome => gives_ok (.inl ?_)) fun _ => gives_failAt _ _ _
      -- what has an anchor or a tag has been read
      refine hread.resolve_right fun hnone => ?_
      obtain ⟨rfl, -⟩ := Prod.mk.inj hnone
      simp [htag rfl] at hsome

/-! ## Reaching a goal -/

/-- A node in front of the goals that are left. -/
theorem gives_node_lt (isBlock : Bool) {n : Nat} (h : r.size < n + 3) :
    Gives (r.node isBlock false) (·.2.size < n) := by
  refine (gives_node _ _ r).mono fun a ha => ?_
  have hle : a.2.size + 3 ≤ r.size := ha.resolve_right (by simp)
  omega

theorem gives_node_mayBeIndentless {n : Nat} (h : r.size + 1 < n) :
    Gives (r.node true true) (·.2.size < n) := by
  refine (gives_node _ _ r).mono fun a ha => ?_
  omega

theorem gives_blockSequence (start : Mark) (r : EventReader) :
    Gives (r.blockSequence start) (·.2.size < r.size) := by
  refine (gives_peek r).bind fun t hskip => ?_
  split
  · refine (gives_peek _).bind fun next _ => ?_
    split
    · exact gives_absent _ (by grind)
    · exact gives_absent _ (by grind)
    · exact gives_node_lt _ (by grind)
  · exact gives_ok (by dsimp only; omega)
  · exact gives_failAt _ _ _

theorem gives_indentlessSequence (r : EventReader) :
    Gives r.indentlessSequence (·.2.size < r.size + 1) := by
  refine (gives_peek r).bind fun t hskip => ?_
  split
  · refine (gives_peek _).bind fun next _ => ?_
    exact gives_ite (fun _ => gives_absent _ (by grind)) fun _ => gives_node_lt _ (by grind)
  · exact gives_ok (Nat.lt_succ_self _)

theorem gives_blockKey (start : Mark) (r : EventReader) :
    Gives (r.blockKey start) (·.2.size < r.size) := by
  refine (gives_peek r).bind fun t hskip => ?_
  split
  · refine (gives_peek _).bind fun next _ => ?_
    refine gives_ite (fun _ => gives_absent _ (by grind)) fun _ => ?_
    exact gives_node_mayBeIndentless (by grind)
  · exact gives_ok (by grind)
  · exact gives_failAt _ _ _

theorem gives_blockValue (start : Mark) (r : EventReader) :
    Gives (r.blockValue start) (·.2.size < r.size + 1) := by
  refine (gives_peek r).bind fun t hskip => ?_
  split
  · refine (gives_peek _).bind fun next _ => ?_
    refine gives_ite (fun _ => gives_absent _ (by grind)) fun _ => ?_
    exact gives_node_mayBeIndentless (by grind)
  · exact gives_absent _ (by grind)

theorem gives_separator (isFirst : Bool) (problem : Problem) (context : Activity × Mark)
    (r : EventReader) : Gives (separator isFirst problem context r) (·.size ≤ r.size) := by
  refine gives_ite (fun _ => gives_ok (Nat.le_refl _)) fun _ => ?_
  refine (gives_peek r).bind fun t hskip => ?_
  exact gives_ite (fun _ => gives_ok (by omega)) fun _ => gives_failAt _ _ _

theorem gives_flowSequence (start : Mark) (isFirst : Bool) (r : EventReader) :
    Gives (r.flowSequence start isFirst) (·.2.size < r.size) := by
  refine (gives_peek r).bind fun t hskip => ?_
  refine gives_ite (fun _ => gives_ok (by grind)) fun _ => ?_
  refine (gives_separator _ _ _ _).bind fun r' hle => ?_
  refine (gives_peek r').bind fun t' hskip' => ?_
  split
  · exact gives_ok (by grind)
  · exact gives_ok (by grind)
  · exact gives_node_lt _ (by grind)

theorem gives_pairKey (r : EventReader) : Gives r.pairKey (·.2.size < r.size) := by
  refine (gives_peek r).bind fun t hskip => ?_
  dsimp only
  split
  · exact gives_absent _ (by grind)
  · exact gives_absent _ (by grind)
  · exact gives_absent _ (by grind)
  · exact gives_node_lt _ (by grind)

theorem gives_pairValue (r : EventReader) : Gives r.pairValue (·.2.size < r.size + 2) := by
  refine (gives_peek r).bind fun t hskip => ?_
  dsimp only
  split
  · refine (gives_peek _).bind fun next _ => ?_
    split
    · exact gives_absent _ (by grind)
    · exact gives_absent _ (by grind)
    · exact gives_node_lt _ (by grind)
  · exact gives_absent _ (by grind)

theorem gives_pairEnd (r : EventReader) : Gives r.pairEnd (·.2.size < r.size + 1) :=
  (gives_peek r).bind fun _ _ => gives_ok (Nat.lt_succ_self _)

theorem gives_flowKey (start : Mark) (isFirst : Bool) (r : EventReader) :
    Gives (r.flowKey start isFirst) (·.2.size < r.size) := by
  refine (gives_peek r).bind fun t hskip => ?_
  refine gives_ite (fun _ => gives_ok (by grind)) fun _ => ?_
  refine (gives_separator _ _ _ _).bind fun r' hle => ?_
  refine (gives_peek r').bind fun t' hskip' => ?_
  split
  · exact gives_ok (by grind)
  · refine (gives_peek _).bind fun next _ => ?_
    split
    · exact gives_absent _ (by grind)
    · exact gives_absent _ (by grind)
    · exact gives_absent _ (by grind)
    · exact gives_node_lt _ (by grind)
  · exact gives_node_lt _ (by grind)

theorem gives_flowValue (start : Mark) (r : EventReader) :
    Gives (r.flowValue start) (·.2.size < r.size + 1) := by
  refine (gives_peek r).bind fun t hskip => ?_
  dsimp only
  split
  · refine (gives_peek _).bind fun next _ => ?_
    split
    · exact gives_absent _ (by grind)
    · exact gives_absent _ (by grind)
    · exact gives_node_lt _ (by grind)
  · exact gives_absent _ (by grind)

theorem gives_flowNoValue (start : Mark) (r : EventReader) :
    Gives (r.flowNoValue start) (·.2.size < r.size + 1) :=
  (gives_peek r).bind fun _ _ => gives_absent _ (by grind)

theorem gives_directives (hasVersion : Bool) (handles : List (String × String))
    (tokens : List Token) :
    Gives (directives hasVersion handles tokens) (·.2.length ≤ tokens.length) := by
  induction tokens generalizing hasVersion handles with
  | nil => exact gives_error none
  | cons t rest ih =>
    have hon (hasVersion : Bool) (handles : List (String × String)) :
        Gives (directives hasVersion handles rest) (·.2.length ≤ (t :: rest).length) :=
      (ih hasVersion handles).mono fun _ h => Nat.le_succ_of_le h
    rw [directives]
    split
    · refine gives_ite (fun _ => gives_failAt _ _ _) fun _ => ?_
      exact gives_ite (fun _ => hon _ _) fun _ => gives_failAt _ _ _
    · exact gives_ite (fun _ => gives_failAt _ _ _) fun _ => hon _ _
    · exact gives_ok (Nat.le_refl _)

theorem size_le_of_tokens {r r' : EventReader} (hgoals : r'.goals = r.goals)
    (htokens : r'.tokens.length ≤ r.tokens.length) : r'.size ≤ r.size := by
  rw [size, size, hgoals]
  omega

theorem gives_document (isFirst : Bool) (r : EventReader) :
    Gives (r.document isFirst) (·.2.size < r.size + (Goal.document isFirst).weight) := by
  let start : EventReader :=
    { r with tokens := if isFirst then r.tokens else r.tokens.dropWhile (·.kind == .documentEnd) }
  have hstart : start.size ≤ r.size := by
    refine size_le_of_tokens rfl ?_
    dsimp only [start]
    split
    · exact Nat.le_refl _
    · exact (List.dropWhile_suffix _).length_le
  refine (gives_peek start).bind fun t hskip => ?_
  refine gives_ite (fun hfirst => gives_ok ?_) fun _ => ?_
  · obtain ⟨rfl, -⟩ := Bool.and_eq_true_iff.mp hfirst
    change ((start.aim .documentEnd).aim .blockNode).size < _
    simp only [size_aim, Goal.weight, if_true]
    omega
  refine gives_ite (fun _ => gives_ok (by grind)) fun _ => ?_
  refine (gives_directives _ _ _).bind fun ⟨handles, tokens⟩ htokens => ?_
  have hrest : { start with handles, tokens }.size ≤ start.size := size_le_of_tokens rfl htokens
  refine (gives_peek { start with handles, tokens }).bind fun next hskip' => ?_
  exact gives_ite (fun _ => gives_ok (by grind)) fun _ => gives_failAt _ _ _

theorem gives_documentContent (r : EventReader) :
    Gives r.documentContent (·.2.size < r.size + 1) := by
  refine (gives_peek r).bind fun t _ => ?_
  refine gives_ite (fun _ => gives_absent _ (Nat.lt_succ_self _)) fun _ => ?_
  exact gives_node_lt _ (by omega)

theorem gives_documentEnd (r : EventReader) : Gives r.documentEnd (·.2.size < r.size + 1) := by
  refine (gives_peek r).bind fun t hskip => gives_ok ?_
  dsimp only
  split <;> grind

/-- A goal is reached by way of less, as long as there are tokens and goals. -/
theorem gives_reach (r : EventReader) (goal : Goal) :
    Gives (r.reach goal) (·.2.size < r.size + goal.weight) := by
  cases goal with
  | document isFirst => exact gives_document isFirst r
  | documentContent => exact gives_documentContent r
  | documentEnd => exact gives_documentEnd r
  | blockNode => exact gives_node_lt _ (by grind)
  | blockSequence start => exact gives_blockSequence start r
  | indentlessSequence => exact gives_indentlessSequence r
  | blockKey start => exact gives_blockKey start r
  | blockValue start => exact gives_blockValue start r
  | flowSequence start isFirst => exact gives_flowSequence start isFirst r
  | pairKey => exact gives_pairKey r
  | pairValue => exact gives_pairValue r
  | pairEnd => exact gives_pairEnd r
  | flowKey start isFirst => exact gives_flowKey start isFirst r
  | flowValue start => exact gives_flowValue start r
  | flowNoValue start => exact gives_flowNoValue start r

end EventReader

/-- The events of a document, up to the first fault. -/
structure Events where
  items : List Event
  fault : Option Fault

/-- The goal in front counts with its weight. -/
theorem EventReader.size_of_goals {r : EventReader} {goal : Goal} {goals : List Goal}
    (h : r.goals = goal :: goals) : { r with goals }.size + goal.weight = r.size := by
  simp only [size, h, List.foldr_cons]
  omega

/-- Read all events. The events before have the last one first. -/
def readEvents (cut : Option Fault) (acc : List Event) (r : EventReader) : Events :=
  match _hgoals : r.goals with
  | [] => ⟨acc.reverse, none⟩
  | goal :: goals =>
    match _h : { r with goals }.reach goal with
    | .error fault => ⟨acc.reverse, fault <|> cut⟩
    | .ok (event, r) => readEvents cut (event :: acc) r
termination_by r.size
decreasing_by
  rw [← EventReader.size_of_goals _hgoals]
  exact EventReader.gives_reach _ _ _ _h

/-- The events that tokens stand for. -/
def Tokens.events (ts : Tokens) : Events :=
  readEvents ts.fault [] { tokens := ts.items, goals := [.document true] }

end OpcodeTable.Yaml
