import Fieldbus.Proofs.Controller.History

namespace Fieldbus

namespace Controller

variable {σ π : Type} {N : Nat} [Listener σ] {c : Controller σ N}

variable [Platform π]

end Controller

end Fieldbus
