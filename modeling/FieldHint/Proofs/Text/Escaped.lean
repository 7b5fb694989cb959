import FieldHint.Text.Basic

/-!
# Text — what stands between quotes

A quoted text goes on to the first character that ends it, unless a backslash stands in front of
that one. Which characters end it depends on the reader: for one it is the quote alone, for another
the line feed as well.

* `Escaped` — what may stand in front of the end;
* `quoted_all` — how a text goes on behind an opening quote: it has an end, or else all of it may
  stand between quotes, up to a backslash that nothing follows.
-/

namespace FieldHint.Text

/-- What a quoted text holds up to its end. A backslash takes any character with it, also one that
would end the text, or another backslash. -/
inductive Escaped (ends : List Char) : Text → Prop
  | nil : Escaped ends []
  | char {c : Char} {t : Text} (hc : c ∉ ends) (hBackslash : c ≠ '\\') (ht : Escaped ends t) :
      Escaped ends (c :: t)
  | escape {c : Char} {t : Text} (ht : Escaped ends t) : Escaped ends ('\\' :: c :: t)

/-- How a text goes on behind an opening quote. -/
inductive Quoted (ends : List Char) : Text → Prop
  | ended {s u : Text} {x : Char} (hs : Escaped ends s) (hx : x ∈ ends) : Quoted ends (s ++ x :: u)
  | endless {s : Text} (hs : Escaped ends s) : Quoted ends s
  | broken {s : Text} (hs : Escaped ends s) : Quoted ends (s ++ ['\\'])

variable {ends : List Char} {s t : Text}

theorem Escaped.append (hs : Escaped ends s) (ht : Escaped ends t) : Escaped ends (s ++ t) := by
  induction hs with
  | nil => exact ht
  | char hc hBackslash _ ih => exact .char hc hBackslash ih
  | escape _ ih => exact .escape ih

theorem Escaped.quoted_append (hs : Escaped ends s) (ht : Quoted ends t) :
    Quoted ends (s ++ t) := by
  cases ht with
  | ended ht hx =>
    rw [← List.append_assoc]
    exact .ended (hs.append ht) hx
  | endless ht => exact .endless (hs.append ht)
  | broken ht =>
    rw [← List.append_assoc]
    exact .broken (hs.append ht)

theorem quoted_all (ends : List Char) (t : Text) : Quoted ends t := by
  match t with
  | [] => exact .endless .nil
  | c :: t =>
    by_cases hEnd : c ∈ ends
    · exact .ended (s := []) .nil hEnd
    by_cases hBackslash : c = '\\'
    · -- a backslash takes the next character with it, if there is one
      subst hBackslash
      match t with
      | [] => exact .broken (s := []) .nil
      | c :: t => exact Escaped.quoted_append (s := ['\\', c]) (.escape .nil) (quoted_all ends t)
    · exact Escaped.quoted_append (s := [c]) (.char hEnd hBackslash .nil) (quoted_all ends t)

end FieldHint.Text
