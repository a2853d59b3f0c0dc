import Courier.Proofs.Attachment.Conservation
import Courier.Proofs.Mention.Adoption

namespace Courier

open Mention

namespace Template

variable {m : Template}

end Template

namespace Composer

open Mutator

end Composer

end Courier
