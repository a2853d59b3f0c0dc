import Courier.Proofs.Session.Classification
import Courier.Proofs.Session.WellFormed

namespace Courier

namespace Payload

end Payload

namespace Message

variable {p : Payload} {answer : Json}

end Message

namespace Payload

end Payload

theorem Response.Succeeds.text {r : Response} (h : r.Succeeds) :
    ∃ text, r.status.text = .ok text := by
  obtain ⟨q, hq, -⟩ := h
  cases hstatus : r.status.comparand with
  | error cause =>
      rw [Given.number?, hstatus] at hq
      cases hq
  | ok c => exact Given.text_of_comparand hstatus

namespace Session

end Session

end Courier
