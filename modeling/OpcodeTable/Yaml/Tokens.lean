import OpcodeTable.Yaml.Reader

/-!
# The tokens of a document

Steps follow one another until the end of the document or the first fault. What a step leaves is a
part of what it was given, and less than that unless it is the last one, so the steps come to an
end.
-/

namespace OpcodeTable.Yaml

namespace Reader

variable {r : Reader} {after : List Glyph}

/-! ## What stays unread -/

theorem gives_dropCandidate (r : Reader) (mark : Mark) :
    Gives (r.dropCandidate mark) fun r' => r'.rest = r.rest ∧ r'.outer = r.outer := by
  unfold dropCandidate
  split
  · split
    · exact gives_failAt _ _ _
    · exact gives_ok ⟨rfl, rfl⟩
  · exact gives_ok ⟨rfl, rfl⟩

theorem gives_noteCandidate (r : Reader) :
    Gives r.noteCandidate fun r' => r'.rest = r.rest ∧ r'.outer = r.outer := by
  unfold noteCandidate
  split
  · exact (gives_dropCandidate _ _).bind fun _ hdrop => gives_ok hdrop
  · exact gives_ok ⟨rfl, rfl⟩

theorem gives_dropFar (r : Reader) (mark : Mark) :
    Gives (r.dropFar mark) fun r' => r'.rest = r.rest ∧ r'.isDone = r.isDone := by
  refine (gives_true _).bind fun outer _ => ?_
  exact (gives_true _).bind fun candidate _ => gives_ok ⟨rfl, rfl⟩

@[simp] theorem rest_indent (r : Reader) (index : Nat) (kind : TokenKind) (mark : Mark) :
    (r.indent index kind mark).rest = r.rest := by
  unfold indent
  split <;> rfl

@[simp] theorem rest_dedent (r : Reader) (target : Int) (mark : Mark) :
    (r.dedent target mark).rest = r.rest := by
  unfold dedent
  split <;> rfl

theorem gives_startBlock (r : Reader) (kind : TokenKind) (problem : Problem) :
    Gives (r.startBlock kind problem) (·.rest = r.rest) := by
  unfold startBlock
  split
  · exact gives_ok rfl
  · split
    · exact gives_ok (rest_indent _ _ _ _)
    · exact gives_failAt _ _ _

theorem gives_outermost (r : Reader) (mark : Mark) :
    Gives (r.outermost mark) (·.rest = r.rest) := by
  refine (gives_dropCandidate _ _).bind fun r' hdrop => gives_ok ?_
  exact hdrop.1.trans (rest_dedent _ _ _)

theorem gives_skipBetween (inFlow inComment keyAllowed : Bool) (gs : List Glyph) :
    Gives (skipBetween inFlow inComment keyAllowed gs) (·.2 <:+ gs) := by
  induction gs generalizing inComment keyAllowed with
  | nil => exact gives_error none
  | cons g rest ih =>
    have hon (inComment keyAllowed : Bool) :
        Gives (skipBetween inFlow inComment keyAllowed rest) (·.2 <:+ g :: rest) :=
      (ih inComment keyAllowed).of_suffix (List.suffix_cons g rest)
    rw [skipBetween]
    split
    · exact hon _ _
    · split
      · exact hon _ _
      · split
        · exact hon _ _
        · split
          · exact hon _ _
          · exact gives_ok List.suffix_rfl

theorem suffix_skipByteOrderMark (gs : List Glyph) : skipByteOrderMark gs <:+ gs := by
  unfold skipByteOrderMark
  split
  · exact List.drop_suffix 1 gs
  · exact List.suffix_rfl

theorem gives_finish (r : Reader) : Gives r.finish (·.isDone = true) := by
  refine (gives_outermost _ _).bind fun r' _ => ?_
  exact (gives_dropFar _ _).bind fun _ _ => gives_ok rfl

/-! ## Every token takes characters -/

/-- The reader has ended, or it has left only a part of these characters. -/
def IsPast (after : List Glyph) (r : Reader) : Prop :=
  r.isDone = true ∨ r.rest <:+ after

theorem rest_take_suffix {g : Glyph} {n : Nat} (kind : TokenKind) (h : r.rest = g :: after) :
    (r.take (n + 1) kind).rest <:+ after := by
  have hrest : (r.take (n + 1) kind).rest = after.drop n := by rw [take, h]; rfl
  rw [hrest]
  exact List.drop_suffix n after

theorem isIndicator_of_isFlowIndicator {c : Char} (h : isFlowIndicator c = true) :
    isIndicator c = true := by
  simp only [isFlowIndicator, Bool.or_eq_true, beq_iff_eq] at h
  obtain (((rfl | rfl) | rfl) | rfl) | rfl := h <;> decide

/-- A character that starts a plain scalar belongs to it. -/
theorem not_endsAt_of_startsPlain {f : PlainFrame} {g : Glyph}
    (h : startsPlain f.inFlow g.char after = true) :
    (isSpace g.char || isBreak g.char) = false ∧ f.endsAt g after = false := by
  simp only [startsPlain, Bool.or_eq_true, Bool.and_eq_true, beq_iff_eq] at h
  rcases h with (h | ⟨h, -⟩) | ⟨⟨hflow, h⟩, hnext⟩
  · have hcolon : isIndicator ':' = true := by decide
    have hflow := isIndicator_of_isFlowIndicator (c := g.char)
    grind [endsWord, endsLine, PlainFrame.endsAt]
  · simp only [PlainFrame.endsAt, h]
    simp [isSpace, isBreak, isEnd, isFlowIndicator]
  · rcases h with h | h
    · simp_all [PlainFrame.endsAt, isSpace, isBreak, isEnd]
    · simp_all [PlainFrame.endsAt, isSpace, isBreak, isEnd]

theorem gives_readPlain_cons {f : PlainFrame} {g : Glyph}
    (h : startsPlain f.inFlow g.char after = true) :
    Gives (readPlain f {} [] (g :: after)) (·.rest <:+ after) := by
  obtain ⟨hspace, hends⟩ := not_endsAt_of_startsPlain h
  rw [readPlain, if_neg (by simp [hspace]), if_neg (by simp [Gap.isEmpty])]
  refine gives_when _ ((gives_true _).bind fun _ _ => ?_)
  rw [if_neg (by simp [Gap.isEmpty])]
  split
  · exact gives_failAt _ _ _
  · rw [if_neg (by simp [hends])]
    exact gives_readPlain _ _ _ _

section Token

variable {g : Glyph} (h : r.rest = g :: after)

include h

theorem gives_node {read : Mark → List Glyph → Lex (TokenKind × List Glyph)}
    (hread : ∀ start, Gives (read start (g :: after)) (·.2 <:+ after)) :
    Gives (r.node read) (·.rest <:+ after) := by
  refine (gives_noteCandidate r).bind fun r' ⟨hrest, _⟩ => ?_
  rw [hrest, h]
  exact (hread _).bind fun _ hleft => gives_ok hleft

/-- What is left is behind the first character. -/
theorem gives_plain (hstart : startsPlain r.inFlow g.char after = true) :
    Gives r.plain (·.rest <:+ after) := by
  refine (gives_noteCandidate r).bind fun r' ⟨hrest, houter⟩ => ?_
  have hflow : r'.inFlow = r.inFlow := by rw [inFlow, houter, inFlow]
  rw [hrest, h]
  refine (gives_readPlain_cons ?_).bind fun scalar hscalar => gives_ok hscalar
  rwa [hflow]

theorem gives_quoted (quote : Char) : Gives (r.quoted quote) (·.rest <:+ after) :=
  gives_node h fun _ => (gives_readQuoted _ _ _ _ _).bind fun _ hleft => gives_ok hleft

theorem gives_blockScalar (isLiteral : Bool) :
    Gives (r.blockScalar isLiteral) (·.rest <:+ after) := by
  refine (gives_dropCandidate _ _).bind fun r' ⟨hrest, _⟩ => ?_
  rw [hrest, h]
  exact (gives_readBlockScalar _ _ _ _).bind fun _ hleft => gives_ok hleft

theorem gives_anchor : Gives r.anchor (·.rest <:+ after) :=
  gives_node h fun _ => (gives_readAnchor _ _ _).bind fun _ hleft => gives_ok hleft

theorem gives_aliasTo : Gives r.aliasTo (·.rest <:+ after) :=
  gives_node h fun _ => (gives_readAnchor _ _ _).bind fun _ hleft => gives_ok hleft

theorem gives_tag : Gives r.tag (·.rest <:+ after) :=
  gives_node h fun _ => (gives_readTag _ _ _).bind fun _ hleft => gives_ok hleft

theorem gives_flowStart (kind : TokenKind) : Gives (r.flowStart kind) (·.rest <:+ after) := by
  refine (gives_noteCandidate r).bind fun r' ⟨hrest, _⟩ => gives_ok ?_
  exact rest_take_suffix kind (hrest.trans h)

theorem gives_flowEnd (kind : TokenKind) : Gives (r.flowEnd kind) (·.rest <:+ after) := by
  refine (gives_dropCandidate r _).bind fun r' ⟨hrest, _⟩ => gives_ok ?_
  exact rest_take_suffix kind (hrest.trans h)

theorem gives_flowEntry : Gives r.flowEntry (·.rest <:+ after) := by
  refine (gives_dropCandidate r _).bind fun r' ⟨hrest, _⟩ => gives_ok ?_
  exact rest_take_suffix .flowEntry (hrest.trans h)

theorem gives_blockEntry : Gives r.blockEntry (·.rest <:+ after) := by
  refine (gives_startBlock _ _ _).bind fun r' hstart => ?_
  refine (gives_dropCandidate _ _).bind fun r'' ⟨hrest, _⟩ => gives_ok ?_
  exact rest_take_suffix .blockEntry (hrest.trans (hstart.trans h))

theorem gives_key : Gives r.key (·.rest <:+ after) := by
  refine (gives_startBlock _ _ _).bind fun r' hstart => ?_
  refine (gives_dropCandidate _ _).bind fun r'' ⟨hrest, _⟩ => gives_ok ?_
  exact rest_take_suffix .key (hrest.trans (hstart.trans h))

theorem gives_value : Gives r.value (·.rest <:+ after) := by
  unfold value
  split
  · exact gives_ok (rest_take_suffix .value ((rest_indent _ _ _ _).trans h))
  · refine (gives_startBlock _ _ _).bind fun r' hstart => gives_ok ?_
    exact rest_take_suffix .value (hstart.trans h)

theorem gives_directive : Gives r.directive (·.rest <:+ after) := by
  refine (gives_outermost _ _).bind fun r' hrest => ?_
  rw [hrest, h]
  exact (gives_readDirective _ _).bind fun _ hleft => gives_ok hleft

theorem gives_documentIndicator (kind : TokenKind) :
    Gives (r.documentIndicator kind) (·.rest <:+ after) := by
  refine (gives_outermost _ _).bind fun r' hrest => gives_ok ?_
  exact rest_take_suffix kind (hrest.trans h)

/-- A token takes its first character, or it is the last one. -/
theorem gives_token : Gives (r.token g.char after) (IsPast after) := by
  have hpast {x : Lex Reader} (hx : Gives x (·.rest <:+ after)) : Gives x (IsPast after) :=
    hx.mono fun _ hrest => .inr hrest
  unfold token
  refine gives_ite (fun _ => (gives_finish r).mono fun _ hdone => .inl hdone) fun _ => ?_
  refine gives_ite (fun _ => hpast (gives_directive h)) fun _ => ?_
  refine gives_ite (fun _ => hpast (gives_documentIndicator h _)) fun _ => ?_
  refine gives_ite (fun _ => hpast (gives_documentIndicator h _)) fun _ => ?_
  refine gives_ite (fun _ => hpast (gives_flowStart h _)) fun _ => ?_
  refine gives_ite (fun _ => hpast (gives_flowStart h _)) fun _ => ?_
  refine gives_ite (fun _ => hpast (gives_flowEnd h _)) fun _ => ?_
  refine gives_ite (fun _ => hpast (gives_flowEnd h _)) fun _ => ?_
  refine gives_ite (fun _ => hpast (gives_flowEntry h)) fun _ => ?_
  refine gives_ite (fun _ => hpast (gives_blockEntry h)) fun _ => ?_
  refine gives_ite (fun _ => hpast (gives_key h)) fun _ => ?_
  refine gives_ite (fun _ => hpast (gives_value h)) fun _ => ?_
  refine gives_ite (fun _ => hpast (gives_aliasTo h)) fun _ => ?_
  refine gives_ite (fun _ => hpast (gives_anchor h)) fun _ => ?_
  refine gives_ite (fun _ => hpast (gives_tag h)) fun _ => ?_
  refine gives_ite (fun _ => hpast (gives_blockScalar h _)) fun _ => ?_
  refine gives_ite (fun _ => hpast (gives_blockScalar h _)) fun _ => ?_
  refine gives_ite (fun _ => hpast (gives_quoted h _)) fun _ => ?_
  exact gives_ite (fun hstart => hpast (gives_plain h hstart)) fun _ => gives_failAt _ _ _

end Token

/-- A step ends the reading, or it takes a character. -/
theorem gives_step (r : Reader) :
    Gives r.step fun r' => r'.isDone = true ∨ r'.rest.length < r.rest.length := by
  refine (gives_skipBetween _ _ _ _).bind fun between hskip => ?_
  have hlength : between.2.length ≤ r.rest.length :=
    (hskip.trans (suffix_skipByteOrderMark r.rest)).length_le
  refine (gives_dropFar _ _).bind fun near hnear => ?_
  have hrest : (near.dedent near.mark.column near.mark).rest = between.2 :=
    (rest_dedent _ _ _).trans hnear.1
  refine (gives_true _).bind fun _ _ => ?_
  split
  · exact gives_error none
  · next g after hafter =>
    have hafter' : after.length < r.rest.length := by
      rw [← hrest, hafter] at hlength
      exact hlength
    refine (gives_token hafter).bind fun reached hpast => ?_
    refine (gives_dropFar _ _).mono fun last hlast => ?_
    rcases hpast with hdone | hsuffix
    · exact .inl (hlast.2.trans hdone)
    · refine .inr ?_
      rw [hlast.1]
      exact Nat.lt_of_le_of_lt hsuffix.length_le hafter'

end Reader

/-- The tokens of a document, up to the first fault. -/
structure Tokens where
  items : List Token
  fault : Option Fault

/-- Read all tokens. -/
def readTokens (cut : Option Fault) (r : Reader) : Tokens :=
  match _h : r.step with
  | .error fault => ⟨r.settled, fault <|> cut⟩
  | .ok r => if _hdone : r.isDone then ⟨r.settled, none⟩ else readTokens cut r
termination_by r.rest.length
decreasing_by exact (Reader.gives_step _ _ _h).resolve_left _hdone

/-- The tokens of a source. -/
def Source.tokens (s : Source) : Tokens :=
  readTokens s.cut { rest := s.glyphs }

end OpcodeTable.Yaml
