import Unwind.Proofs.Portions
import Unwind.Proofs.ReturnedExpressions

/-!
# Lowering keeps the text of a body

Lowering puts generated code around the tokens of a body, and it takes some away. Which ones these
are is said by the portions of the body: only the word `rethrow` of a portion that sends on a
failure, and what stands around the tokens of a nested block, do not come back in the code. This is
a fact about each kind of portion (`Portion.unmarked_sublist`).
-/

namespace Unwind

/-- A piece of text with nothing inside: a group is what opens it, what is in it and what closes
it. -/
inductive Glyph where
  | word (text : String)
  | punct (c : Char) (spacing : Spacing)
  | literal (text : String)
  | opening (d : Delimiter)
  | closing (d : Delimiter)
  deriving DecidableEq

namespace Token

mutual

/-- The pieces of text of a token in order. -/
def glyphs : Token → List Glyph
  | .ident text => [.word text]
  | .punct c spacing => [.punct c spacing]
  | .literal text => [.literal text]
  | .group d inner => .opening d :: glyphsOf inner ++ [.closing d]

def glyphsOf : List Token → List Glyph
  | [] => []
  | t :: ts => glyphs t ++ glyphsOf ts

end

theorem glyphsOf_append (ts ts' : List Token) :
    glyphsOf (ts ++ ts') = glyphsOf ts ++ glyphsOf ts' := by
  induction ts with
  | nil => rfl
  | cons t ts ih => rw [List.cons_append, glyphsOf, glyphsOf, ih, List.append_assoc]

theorem glyphsOf_singleton (t : Token) : glyphsOf [t] = t.glyphs := by
  rw [glyphsOf, glyphsOf, List.append_nil]

theorem sublist_glyphsOf_group (ts : List Token) (d : Delimiter) (inner : List Token) :
    (glyphsOf inner).Sublist (glyphsOf (ts ++ [.group d inner])) := by
  rw [glyphsOf_append, glyphsOf_singleton, glyphs, List.cons_append]
  exact ((List.sublist_append_left _ _).cons _).trans (List.sublist_append_right _ _)

end Token

open Token

namespace Portion

/-- Text of which nothing is marked. -/
def plain (text : List Glyph) : List (Glyph × Bool) :=
  text.map (·, false)

/-- The text that is not marked. -/
def unmarked (text : List (Glyph × Bool)) : List Glyph :=
  (text.filter (!·.2)).map (·.1)

mutual

/-- The text of a portion, where what is taken away is marked. -/
def marked : Portion → List (Glyph × Bool)
  | .token t => plain t.glyphs
  | .copied span => plain (glyphsOf span)
  | .group d inner => (.opening d, false) :: markedAll inner ++ [(.closing d, false)]
  | .leave expr => (.word "return", false) :: markedAll expr
  | .rethrow => [(.word "rethrow", true)]
  | .nested spacing d inner =>
    [(.word "guarded", true), (.punct '!' spacing, true), (.opening d, true)] ++
      plain (glyphsOf inner) ++ [(.closing d, true)]

def markedAll : List Portion → List (Glyph × Bool)
  | [] => []
  | p :: ps => marked p ++ markedAll ps

end

variable {handling : String} {mode : RethrowMode}

theorem map_plain (text : List Glyph) : (plain text).map (·.1) = text := by
  rw [plain, List.map_map]
  exact List.map_id _

theorem unmarked_plain (text : List Glyph) : unmarked (plain text) = text := by
  induction text with
  | nil => rfl
  | cons g text ih => exact congrArg (g :: ·) ih

theorem unmarked_append (text text' : List (Glyph × Bool)) :
    unmarked (text ++ text') = unmarked text ++ unmarked text' := by
  rw [unmarked, List.filter_append, List.map_append]
  rfl

mutual

/-- The marked text is all of the text. -/
theorem map_marked : (p : Portion) → (marked p).map (·.1) = glyphsOf (source p)
  | .token t => by rw [marked, map_plain, source, glyphsOf_singleton]
  | .copied span => by rw [marked, map_plain, source]
  | .group d inner => by
    rw [marked, List.map_append, List.map_cons, map_markedAll inner, source, glyphsOf_singleton]
    rfl
  | .leave expr => by
    rw [marked, List.map_cons, map_markedAll expr]
    rfl
  | .rethrow => rfl
  | .nested spacing d inner => by
    rw [marked, List.map_append, List.map_append, map_plain, source, glyphsOf, glyphsOf,
      glyphsOf_singleton]
    rfl

theorem map_markedAll : (ps : List Portion) → (markedAll ps).map (·.1) = glyphsOf (sourceAll ps)
  | [] => rfl
  | p :: ps => by
    rw [markedAll, sourceAll, List.map_append, glyphsOf_append, map_marked p, map_markedAll ps]

end

/-- A `return` and its value come back where an outcome is made of them. -/
theorem sublist_earlyReturn (value : List Token) :
    (Glyph.word "return" :: glyphsOf value).Sublist (glyphsOf (Lowering.earlyReturn value)) := by
  have hunit : (glyphsOf value).Sublist
      (glyphsOf (if value.isEmpty then [parens []] else value)) := by
    cases value with
    | nil => exact List.nil_sublist _
    | cons t value => exact List.Sublist.refl _
  have hargs := hunit.trans
    (sublist_glyphsOf_group (path ["raise_this", "Outcome", "Return"]) .parenthesis _)
  have hcall := hargs.trans
    (sublist_glyphsOf_group (path ["core", "result", "Result", "Ok"]) .parenthesis _)
  exact hcall.cons_cons _

theorem sublist_nestedExpansion (inner : List Token) :
    (glyphsOf inner).Sublist (glyphsOf (Lowering.nestedExpansion mode handling inner)) := by
  have hinner : (glyphsOf inner).Sublist
      (glyphsOf (.ident (Lowering.nestedMarker mode) :: .ident handling :: inner)) :=
    ((List.Sublist.refl _).cons _).cons _
  have hcall := hinner.trans (sublist_glyphsOf_group
    (path ["raise_this", "raise_this_macros", "__guarded_proc"] ++ [mark '!']) .parenthesis _)
  rwa [List.append_assoc] at hcall

mutual

/-- What is not marked comes back in the code. -/
theorem unmarked_sublist : (p : Portion) → {ts : List Token} → code handling mode p = .ok ts →
    (unmarked (marked p)).Sublist (glyphsOf ts)
  | .token t, ts, h => by
    cases h
    have hkept : unmarked (marked (.token t)) = glyphsOf [t] := by
      rw [marked, unmarked_plain, glyphsOf_singleton]
    exact hkept ▸ List.Sublist.refl _
  | .copied span, ts, h => by
    cases h
    exact unmarked_plain (glyphsOf span) ▸ List.Sublist.refl _
  | .group d inner, ts, h => by
    obtain ⟨inner', hinner, h⟩ := bind_eq_ok_iff.1 h
    cases h
    rw [marked, unmarked_append, glyphsOf_singleton]
    exact (((unmarkedAll_sublist inner hinner)).cons_cons _).append (List.Sublist.refl _)
  | .leave expr, ts, h => by
    obtain ⟨value, hvalue, h⟩ := bind_eq_ok_iff.1 h
    cases h
    exact ((unmarkedAll_sublist expr hvalue).cons_cons _).trans (sublist_earlyReturn value)
  | .rethrow, ts, _ => List.nil_sublist _
  | .nested spacing d inner, ts, h => by
    cases h
    rw [marked, unmarked_append, unmarked_append, unmarked_plain]
    exact (List.append_nil _).symm ▸ sublist_nestedExpansion inner

theorem unmarkedAll_sublist : (ps : List Portion) → {ts : List Token} →
    codeAll handling mode ps = .ok ts → (unmarked (markedAll ps)).Sublist (glyphsOf ts)
  | [], ts, _ => List.nil_sublist _
  | p :: ps, ts, h => by
    obtain ⟨first, hfirst, h⟩ := bind_eq_ok_iff.1 h
    obtain ⟨rest, hrest, h⟩ := bind_eq_ok_iff.1 h
    cases h
    rw [markedAll, unmarked_append, glyphsOf_append]
    exact (unmarked_sublist p hfirst).append (unmarkedAll_sublist ps hrest)

end

end Portion

/-- None of the words of control flow is in a text. -/
def IsCalmText (text : List Glyph) : Prop :=
  ∀ word ∈ ["return", "rethrow", "guarded"], .word word ∉ text

theorem isCalmText_append {text text' : List Glyph} :
    IsCalmText (text ++ text') ↔ IsCalmText text ∧ IsCalmText text' := by
  simp only [IsCalmText, List.mem_append, not_or, forall_and]

theorem isCalm_of_glyphs {t : Token} (h : IsCalmText t.glyphs) : isCalm t = true := by
  have hword {word : String} (hword : word ∈ ["return", "rethrow", "guarded"]) :
      t.isIdent word = false := by
    refine Bool.eq_false_iff.2 fun ht => h word hword ?_
    rw [Span.eq_of_isIdent ht]
    exact List.mem_singleton_self _
  exact isCalm_eq_true.2 ⟨hword (by decide), hword (by decide), hword (by decide)⟩

/-- What the text says of words holds at every depth. -/
theorem allThroughout_isCalm : (ts : List Token) → IsCalmText (glyphsOf ts) →
    Expansion.allThroughout isCalm ts = true
  | [], _ => rfl
  | .group d inner :: ts, h => by
    obtain ⟨hgroup, hts⟩ := isCalmText_append.1 h
    have hinner : IsCalmText (glyphsOf inner) := fun word hword hmem =>
      hgroup word hword (List.mem_cons_of_mem _ (List.mem_append_left _ hmem))
    exact Bool.and_eq_true_iff.2 ⟨allThroughout_isCalm inner hinner, allThroughout_isCalm ts hts⟩
  | .ident _ :: ts, h | .punct _ _ :: ts, h | .literal _ :: ts, h => by
    obtain ⟨ht, hts⟩ := isCalmText_append.1 h
    exact Bool.and_eq_true_iff.2 ⟨isCalm_of_glyphs ht, allThroughout_isCalm ts hts⟩

/-- Lowering loses nothing of a body and keeps it in order. The body is its portions, and its code
is made from these one by one. Of the text only this is taken away: the word of a `rethrow` that is
replaced, and of a nested block that is replaced its name, its mark and its delimiters. All other
text is in the code in the same order. If the words `return`, `rethrow` and `guarded` do not occur,
the code is the body. -/
theorem lowering_keeps_text (body : List Token) :
    (Portion.sourceAll (Lowering.portions none body) = body ∧
      (Portion.markedAll (Lowering.portions none body)).map (·.1) = glyphsOf body ∧
      ∀ handling mode,
        lowerBody handling mode body =
          Portion.codeAll handling mode (Lowering.portions none body) ∧
        ∀ code, lowerBody handling mode body = .ok code →
          (Portion.unmarked (Portion.markedAll (Lowering.portions none body))).Sublist
            (glyphsOf code)) ∧
    (IsCalmText (glyphsOf body) → ∀ handling mode, lowerBody handling mode body = .ok body) := by
  have hsource := Lowering.sourceAll_portions none body
  have hcode (handling : String) (mode : RethrowMode) :=
    Lowering.tokens_eq_codeAll handling mode none body
  refine ⟨⟨hsource, ?_, fun handling mode => ⟨hcode handling mode, fun code h => ?_⟩⟩, ?_⟩
  · rw [Portion.map_markedAll, hsource]
  · exact Portion.unmarkedAll_sublist _ ((hcode handling mode).symm.trans h)
  · intro h handling mode
    exact Lowering.tokens_of_calm (allThroughout_isCalm body h)

/-- A body with a `return` in a group, a nested block and a `rethrow`, and one with a closure and a
function that both break off. -/
theorem lowering_keeps_text_of_block :
    let block : List Token := [.ident "rt", .punct '=' .joint, mark '>', .ident "try", braces []]
    let body : List Token := [.ident "if", .ident "a", braces [.ident "return", .literal "1"],
      .ident "guarded", mark '!', parens block, mark ';', .ident "rethrow", mark ';']
    let code : List Token :=
      .ident "if" :: .ident "a" :: braces (Lowering.earlyReturn [.literal "1"]) ::
        Lowering.nestedExpansion .owning "h" block ++ mark ';' ::
        Lowering.failingReturn "h" "rethrow" ++ [mark ';']
    let kept : List Glyph :=
      [.word "if", .word "a", .opening .brace, .word "return", .literal "1", .closing .brace] ++
        glyphsOf block ++ [.punct ';' .alone, .punct ';' .alone]
    let broken : List Token := [mark '|', .ident "x", mark ';', .ident "fn", .ident "f"]
    lowerBody "h" .owning body = .ok code ∧
      Portion.unmarked (Portion.markedAll (Lowering.portions none body)) = kept ∧
      kept.Sublist (glyphsOf code) ∧
      ∀ handling mode, lowerBody handling mode broken = .ok broken := by
  intro block body code kept broken
  have hok : lowerBody "h" .owning body = .ok code := by cbv
  have hportions : Lowering.portions none body =
      [.token (.ident "if"), .token (.ident "a"), .group .brace [.leave [.token (.literal "1")]],
        .nested .alone .parenthesis block, .token (mark ';'), .rethrow, .token (mark ';')] := by
    cbv
  have hkept : Portion.unmarked (Portion.markedAll (Lowering.portions none body)) = kept := by
    rw [hportions]
    rfl
  have hcalm : IsCalmText (glyphsOf broken) := by
    unfold IsCalmText
    decide
  obtain ⟨⟨-, -, hcode⟩, -⟩ := lowering_keeps_text body
  exact ⟨hok, hkept, hkept ▸ (hcode "h" .owning).2 code hok, (lowering_keeps_text broken).2 hcalm⟩

end Unwind
