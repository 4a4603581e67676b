import Mathlib.Algebra.GroupWithZero.Nat

/-!
# The sizes of index types

That a size is not zero is what gives `Fin` its numerals. For the sizes in use it is stated once,
so that every numeral rests on the same instance.
-/

namespace Sizes

instance two : NeZero 2 := ⟨by decide⟩

instance three : NeZero 3 := ⟨by decide⟩

instance four : NeZero 4 := ⟨by decide⟩

instance seven : NeZero 7 := ⟨by decide⟩

instance eight : NeZero 8 := ⟨by decide⟩

instance nine : NeZero 9 := ⟨by decide⟩

instance twelve : NeZero 12 := ⟨by decide⟩

instance sixteen : NeZero 16 := ⟨by decide⟩

instance page : NeZero 256 := ⟨by decide⟩

end Sizes
