/-! # Letters without regard to case, ASCII only

Two texts are the same up to ASCII case when their folded forms are equal; no letter outside ASCII
is touched.
-/
namespace Reconciliation.Text

def foldCase (s : String) : List Char :=
  s.toList.map Char.toLower

def sameLetters (s t : String) : Bool :=
  foldCase s == foldCase t

end Reconciliation.Text
