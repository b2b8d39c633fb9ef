import Ros2ToolsAdapter.Adapter.Lifecycle
import Ros2ToolsAdapter.Codec.Finite
import Ros2ToolsAdapter.Codec.RoundTrip
import Ros2ToolsAdapter.Adapter.GraphNames
import Ros2ToolsAdapter.Adapter.Configuration
import Ros2ToolsAdapter.Adapter.Exclusion
import Ros2ToolsAdapter.Adapter.Binding
import Ros2ToolsAdapter.Adapter.Refusal
import Ros2ToolsAdapter.Adapter.StrictJson
import Ros2ToolsAdapter.Python.Value
import Ros2ToolsAdapter.Python.Json
import Ros2ToolsAdapter.Python.JsonRoundTrip
import Ros2ToolsAdapter.Foundation.Except
import Ros2ToolsAdapter.Python.Files
import Ros2ToolsAdapter.Artifact.Manifest
import Ros2ToolsAdapter.Artifact.Verification
import Ros2ToolsAdapter.Artifact.Release
import Ros2ToolsAdapter.Codec.DynamicMessage
import Ros2ToolsAdapter.Codec.BufferOwnership
import Ros2ToolsAdapter.Foundation.Embedding
import Ros2ToolsAdapter.Process.Main
import Ros2ToolsAdapter.Process.Startup
import Ros2ToolsAdapter.Process.Session
import Ros2ToolsAdapter.Python.JsonStyle
import Ros2ToolsAdapter.Generator.RuntimeManifests
import Ros2ToolsAdapter.Generator.ContractMetadata
import Ros2ToolsAdapter.Generator.HeaderContract
import Ros2ToolsAdapter.Generator.Agreement
import Ros2ToolsAdapter.Python.Hashlib
import Ros2ToolsAdapter.Generator.Drift
import Ros2ToolsAdapter.Generator.Written
import Ros2ToolsAdapter.Adapter.Waiting
import Ros2ToolsAdapter.Adapter.Report
import Ros2ToolsAdapter.Codec.Blame
import Ros2ToolsAdapter.Codec.Normal
import Ros2ToolsAdapter.Adapter.Standing
import Ros2ToolsAdapter.Adapter.Accounting
import Ros2ToolsAdapter.Evidence.Written
import Ros2ToolsAdapter.Evidence.Plan
