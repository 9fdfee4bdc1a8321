/-!
Texts put together with a separator between them.

* `joined`: the parts with the separator between each and the next;
* `lines`: the parts as lines.
-/

namespace Concerto.Text

/-- The parts with a separator between each and the next. -/
def joined (separator : String) : List String → String
  | [] => ""
  | [part] => part
  | part :: parts => part ++ separator ++ joined separator parts

/-- The parts with a line break between each and the next. -/
def lines (parts : List String) : String := joined "\n" parts

@[simp] theorem joined_nil (separator : String) : joined separator [] = "" := rfl

@[simp] theorem joined_singleton (separator part : String) : joined separator [part] = part := rfl

@[simp] theorem joined_cons_cons (separator part next : String) (parts : List String) :
    joined separator (part :: next :: parts) =
      part ++ separator ++ joined separator (next :: parts) := rfl

example : joined "." ["org", "acme", "hr"] = "org.acme.hr" := by decide

end Concerto.Text
