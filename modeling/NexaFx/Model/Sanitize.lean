import NexaFx.Lib.JsNumber
import NexaFx.Lib.Replace

/-!
# Sanitised texts

`sanitizeText` of `common/decorators/sanitize.decorator.ts`. Each of its three
patterns is the length of its match at the start of a text; they read ASCII
only, so the flag `i` is about ASCII letters.
-/

namespace NexaFx

namespace Sanitize

open Replace

/-- The word, which is in small letters, in any case. -/
def word (w s : List Char) : Option ℕ :=
  if (s.take w.length).map Char.toLower = w then some w.length else none

/-- `\w` -/
def isWordChar (c : Char) : Bool := c.isAlphanum || c = '_'

/-- `[^<]*(?:(?!<\/script>)<[^<]*)*<\/script>`: up to the first closing tag. The
lookahead stops the group there, and before it there is no way to end. -/
def scriptBody : List Char → Option ℕ
  | [] => none
  | c :: s =>
    match word "</script>".toList (c :: s) with
    | some n => some n
    | none => (scriptBody s).map (· + 1)

/-- `<script\b[^<]*(?:(?!<\/script>)<[^<]*)*<\/script>` -/
def script (s : List Char) : Option ℕ :=
  match word "<script".toList s with
  | none => none
  | some n =>
    let rest := s.drop n
    if rest.head?.any isWordChar = true then none else (scriptBody rest).map (n + ·)

/-- `<[^>]*>` -/
def tag : List Char → Option ℕ
  | '<' :: s => (s.findIdx? (· = '>')).map (· + 2)
  | _ => none

/-- `&nbsp;` -/
def nbsp : List Char → Option ℕ := word "&nbsp;".toList

def sanitizeText (value : Option String) : String :=
  match value with
  | none => ""
  | some text =>
    let withoutScripts := replaceAll script [] text.toList
    let withoutTags := replaceAll tag [] withoutScripts
    let withoutEntities := replaceAll nbsp [' '] withoutTags
    String.ofList (Js.trim withoutEntities)

end Sanitize

end NexaFx
