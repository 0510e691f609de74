import ScopedExpr.Proofs.TextGrammar

/-!
# Tilings of a source

The items of a source lie in it one behind the other, with nothing but blanks between
them, and no item loses a character of its text, not even a fault.
-/

namespace ScopedExpr

/-- Blanks, the text of an item behind them, and the item. -/
structure Tile where
  gap : String
  span : String
  item : Except LexError Token

namespace Tile

def text (t : Tile) : String := t.gap ++ t.span

end Tile

/-- The text that belongs to an item, with the text behind it: the lexeme of a token, the
character or the number that a fault names, or everything from a quote to the end. -/
inductive SpanOf : Except LexError Token → String → String → Prop where
  | token {kind lexeme line behind} : SpanOf (.ok ⟨kind, lexeme, line⟩) lexeme behind
  | unexpected {c line behind} :
      SpanOf (.error ⟨.unexpected c, line⟩) (String.singleton c) behind
  | malformedNumber {number line behind} :
      SpanOf (.error ⟨.malformedNumber number, line⟩) (String.ofList number) behind
  | unterminatedText {quote content line} (opening : quote = '"' ∨ quote = '\'')
      (free : quote ∉ content) :
      SpanOf (.error ⟨.unterminatedText, line⟩) (String.ofList (quote :: content)) ""

/-- A span lies in a source behind a text: it begins and ends between code points, and
the bytes between are its own. -/
structure SpanAt (source before span : String) : Prop where
  start : before.rawEndPos.IsValid source
  stop : (before ++ span).rawEndPos.IsValid source
  bytes : source.toByteArray.extract before.utf8ByteSize (before ++ span).utf8ByteSize =
    span.toByteArray

/-- Tiles and blanks behind them that make up a source. -/
structure Tiling (source : String) (tiles : List Tile) (tail : String) : Prop where
  whole : source = String.join (tiles.map Tile.text) ++ tail
  gaps : ∀ t ∈ tiles, Blank t.gap.toList
  ending : Blank tail.toList
  nonempty : ∀ t ∈ tiles, t.span ≠ ""
  spans : ∀ before t after, tiles = before ++ t :: after →
    SpanOf t.item t.span (String.join (after.map Tile.text) ++ tail)
  places : ∀ before t after, tiles = before ++ t :: after →
    SpanAt source (String.join (before.map Tile.text) ++ t.gap) t.span

theorem spanAt_append (before span behind : String) :
    SpanAt (before ++ span ++ behind) before span where
  start := String.Pos.Raw.isValid_iff_exists_append.2
    ⟨before, span ++ behind, String.append_assoc, rfl⟩
  stop := String.Pos.Raw.isValid_iff_exists_append.2 ⟨before ++ span, behind, rfl, rfl⟩
  bytes := by
    have stop : (before ++ span).utf8ByteSize = before.utf8ByteSize + span.utf8ByteSize :=
      String.utf8ByteSize_append
    rw [stop, String.append_assoc, String.toByteArray_append, String.toByteArray_append]
    have inner := ByteArray.extract_append_size_add' (a := before.toByteArray)
      (b := span.toByteArray ++ behind.toByteArray) (i := 0) (j := span.utf8ByteSize) rfl
    exact inner.trans (ByteArray.extract_append_eq_left rfl)

namespace Tiling

variable {source tail : String} {tiles : List Tile}

theorem nil (blank : Blank tail.toList) : Tiling tail [] tail where
  whole := by simp
  gaps := by simp
  ending := blank
  nonempty := by simp
  spans := by simp
  places := by simp

theorem cons (rest : Tiling source tiles tail) {t : Tile} (gap : Blank t.gap.toList)
    (nonempty : t.span ≠ "") (span : SpanOf t.item t.span source) :
    Tiling (t.text ++ source) (t :: tiles) tail := by
  have whole : t.text ++ source = String.join ((t :: tiles).map Tile.text) ++ tail := by
    rw [rest.whole]
    simp [String.append_assoc]
  refine ⟨whole, ?_, rest.ending, ?_, ?_, ?_⟩
  · intro u mem
    rcases List.mem_cons.1 mem with rfl | mem
    · exact gap
    · exact rest.gaps u mem
  · intro u mem
    rcases List.mem_cons.1 mem with rfl | mem
    · exact nonempty
    · exact rest.nonempty u mem
  · intro before u after split
    cases before with
    | nil =>
      obtain ⟨rfl, rfl⟩ := List.cons.inj split
      rw [← rest.whole]
      exact span
    | cons v before => exact rest.spans before u after (List.cons.inj split).2
  · intro before u after split
    have place : t.text ++ source = String.join (before.map Tile.text) ++ u.gap ++ u.span ++
        (String.join (after.map Tile.text) ++ tail) := by
      rw [whole, split]
      simp [Tile.text, String.append_assoc]
    rw [place]
    exact spanAt_append _ _ _

end Tiling

section Items

variable {word rest : List Char} {result : Except LexFault TokenKind}

theorem BeginsWith.spanOf (h : BeginsWith (word ++ rest) result word) (line : Nat) :
    SpanOf (lexedItem result word line) (String.ofList word) (String.ofList rest) := by
  generalize split : word ++ rest = text at h
  cases h with
  | name _ _ | mark _ | quoted _ _ _ | line _ _ _ _ | fenced _ _ | unfenced _ _ => exact .token
  | number _ reads =>
    cases reads with
    | integer _ _ _ | float _ _ _ => exact .token
    | loose _ | large _ _ => exact .malformedNumber
  | unterminated opening quoted free =>
    obtain rfl : rest = [] := List.append_right_eq_self.1 split
    subst quoted
    exact .unterminatedText opening free
  | strange _ _ _ => exact .unexpected

theorem exists_tiling_of_scans {line : Nat} {text : List Char}
    {items : List (Except LexError Token)} (h : Scans line text items) :
    ∃ tiles tail last, Tiling (String.ofList text) tiles tail ∧
      items = tiles.map Tile.item ++ [.ok ⟨.endOfText, "", last⟩] := by
  induction h with
  | @nothing line gap blank =>
    exact ⟨[], String.ofList gap, _, .nil (by rwa [String.toList_ofList]), rfl⟩
  | @item line gap word rest result items blank begins _ ih =>
    obtain ⟨tiles, tail, last, tiling, rfl⟩ := ih
    let tile : Tile :=
      ⟨String.ofList gap, String.ofList word, lexedItem result word (line + newlines gap)⟩
    have span : tile.span ≠ "" := by
      intro empty
      exact begins.word_ne_nil (by simpa [tile] using congrArg String.toList empty)
    have tiling' := tiling.cons (t := tile) (by rwa [String.toList_ofList]) span (begins.spanOf _)
    refine ⟨tile :: tiles, tail, last, ?_, rfl⟩
    simpa [Tile.text, tile, String.ofList_append, String.append_assoc] using tiling'

end Items

theorem Tiling.span_eq_lexeme {source tail : String} {tiles : List Tile}
    (h : Tiling source tiles tail) {t : Tile} (mem : t ∈ tiles) {token : Token}
    (is : t.item = .ok token) : t.span = token.lexeme := by
  obtain ⟨before, after, split⟩ := List.append_of_mem mem
  have span := h.spans before t after split
  rw [is] at span
  cases span
  rfl

private theorem zipWith_lexemes {tiles : List Tile} {tokens : List Token}
    (lexemes : ∀ t ∈ tiles, ∀ token, t.item = .ok token → t.span = token.lexeme)
    (items : tokens.map .ok = tiles.map Tile.item) :
    List.zipWith (fun gap token => gap ++ token.lexeme) (tiles.map Tile.gap) tokens =
      tiles.map Tile.text := by
  induction tiles generalizing tokens with
  | nil => rfl
  | cons t tiles ih =>
    cases tokens with
    | nil => cases items
    | cons token tokens =>
      obtain ⟨is, more⟩ := List.cons.inj items
      have first := lexemes t List.mem_cons_self token is.symm
      have rest := ih (fun u mem => lexemes u (List.mem_cons_of_mem t mem)) more
      simp only [List.map_cons, List.zipWith_cons_cons, rest, Tile.text, first]

def IsSpaced (tokens : List Token) (source : String) : Prop :=
  ∃ gaps : List String, gaps.length = tokens.length ∧ (∀ gap ∈ gaps, Blank gap.toList) ∧
    source = String.join (List.zipWith (fun gap token => gap ++ token.lexeme) gaps tokens)

theorem Tiling.isSpaced {source tail : String} {tiles : List Tile} (h : Tiling source tiles tail)
    {tokens : List Token} {line : Nat}
    (items : tokens.map .ok = tiles.map Tile.item ++ [.ok ⟨.endOfText, "", line⟩]) :
    IsSpaced tokens source := by
  obtain ⟨front, ending, rfl, frontItems, endItem⟩ := List.map_eq_append_iff.1 items
  obtain ⟨eof, rfl, is⟩ := List.map_eq_singleton_iff.1 endItem
  cases is
  have size : (tiles.map Tile.gap).length = front.length := by
    simpa using (congrArg List.length frontItems).symm
  have texts := zipWith_lexemes (fun t mem token => h.span_eq_lexeme mem) frontItems
  refine ⟨tiles.map Tile.gap ++ [tail], by simp [size], ?_, ?_⟩
  · intro gap mem
    rcases List.mem_append.1 mem with mem | mem
    · obtain ⟨t, inTiles, rfl⟩ := List.mem_map.1 mem
      exact h.gaps t inTiles
    · rw [List.mem_singleton.1 mem]
      exact h.ending
  · rw [List.zipWith_append size, texts, String.join_append, h.whole]
    simp

/-- Every source is tiled by its items, with the end behind the last; when it scans, it is
the lexemes of its tokens and the blanks between them, byte for byte. -/
theorem source_tiling (source : String) :
    (∃ tiles tail line, Tiling source tiles tail ∧
      textItems source.toList = tiles.map Tile.item ++ [.ok ⟨.endOfText, "", line⟩]) ∧
    ∀ tokens, tokensOf source = .ok tokens → IsSpaced tokens source := by
  obtain ⟨tiles, tail, line, tiling, items⟩ :=
    exists_tiling_of_scans (scans_items source.toList 1)
  rw [String.ofList_toList] at tiling
  refine ⟨⟨tiles, tail, line, tiling, items⟩, fun tokens scanned => ?_⟩
  exact tiling.isSpaced ((collectTokens_eq_ok_iff.1 scanned).symm.trans items)

end ScopedExpr
