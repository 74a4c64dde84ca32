/-!
# The order of lists of texts

Lists of texts are ordered like words: the first place at which two of them differ decides, and a
list comes before every longer list that begins with it.
-/

namespace SiteOperator

/-- Whether a list of texts comes before another one, or is the same. -/
def textsLe : List String → List String → Bool
  | [], _ => true
  | _ :: _, [] => false
  | a :: as, b :: bs => if a = b then textsLe as bs else decide (a < b)

end SiteOperator
