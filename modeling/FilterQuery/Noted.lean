/-!
# Values with notes

A result together with what was noted on the way to it, in order: the errors
met, or the calls made.
-/

namespace FilterQuery

/-- A value and the notes taken on the way to it. -/
structure Noted (ν β : Type) where
  value : β
  notes : List ν := []
  deriving Inhabited, Repr

namespace Noted

variable {ν β γ : Type}

/-- One note. -/
def note (n : ν) : Noted ν Unit := ⟨(), [n]⟩

/-- Several notes. -/
def noteAll (ns : List ν) : Noted ν Unit := ⟨(), ns⟩

/-- A note, and the value that stands in for what it is about. -/
def noting (n : ν) (value : β) : Noted ν β := ⟨value, [n]⟩

instance : Monad (Noted ν) where
  pure value := { value }
  bind x f := ⟨(f x.value).value, x.notes ++ (f x.value).notes⟩

@[simp] theorem value_pure (b : β) : (pure b : Noted ν β).value = b := rfl

@[simp] theorem notes_pure (b : β) : (pure b : Noted ν β).notes = [] := rfl

@[simp] theorem value_bind (x : Noted ν β) (f : β → Noted ν γ) :
    (x >>= f).value = (f x.value).value := rfl

@[simp] theorem notes_bind (x : Noted ν β) (f : β → Noted ν γ) :
    (x >>= f).notes = x.notes ++ (f x.value).notes := rfl

end Noted

end FilterQuery
