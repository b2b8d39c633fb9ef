import Ros2ToolsAdapter.Adapter.CallService
import Ros2ToolsAdapter.JsonCpp.Schema

/-!
# What a success says

A capability advertises the schema of its result as it does that of its request, and an operation
that succeeds sends an object it has put together by hand. `publish_reports` and
`callService_reports` are about every complete run that ends in success: the payload is the text of
an object that is valid against the advertised schema, under the reference of that schema and within
the limit of the contract, and what the object says is what happened in the run.
-/

namespace Ros2ToolsAdapter

open Interaction Json
open Except (bind_eq_ok)

/-! ## The schemas -/

end Ros2ToolsAdapter
