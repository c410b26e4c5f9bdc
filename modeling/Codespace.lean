import Codespace.Api.Answers
import Codespace.Api.Fields
import Codespace.Api.Manifest
import Codespace.Api.Schema
import Codespace.Api.Server
import Codespace.Api.Session
import Codespace.Controller.Apart
import Codespace.Controller.Applied
import Codespace.Controller.Calls
import Codespace.Controller.Checked
import Codespace.Controller.Children
import Codespace.Controller.Desired
import Codespace.Controller.Drift
import Codespace.Controller.Finalizer
import Codespace.Controller.Fit
import Codespace.Controller.History
import Codespace.Controller.Idle
import Codespace.Controller.Informed
import Codespace.Controller.Names
import Codespace.Controller.Queue
import Codespace.Controller.Reconcile
import Codespace.Controller.Resume
import Codespace.Controller.Routing
import Codespace.Controller.Settle
import Codespace.Controller.Status
import Codespace.Controller.Template
import Codespace.Go.Base64
import Codespace.Go.Codec
import Codespace.Go.Json
import Codespace.Go.Lists
import Codespace.Go.Marshal
import Codespace.Go.Query
import Codespace.Go.Strings
import Codespace.Go.Url
import Codespace.Interact.Pool
import Codespace.Interact.Program
import Codespace.Interact.Workqueue
import Codespace.Policy.Shipped
import Codespace.Policy.Table
import Codespace.Server.Adoption
import Codespace.Server.Bodies
import Codespace.Server.CommaLists
import Codespace.Server.Course
import Codespace.Server.Custody
import Codespace.Server.Deletion
import Codespace.Server.Discovery
import Codespace.Server.Fleet
import Codespace.Server.Framing
import Codespace.Server.Handlers
import Codespace.Server.Http
import Codespace.Server.InstanceID
import Codespace.Server.Introspect
import Codespace.Server.Isolation
import Codespace.Server.Legacy
import Codespace.Server.Mediation
import Codespace.Server.Numbers
import Codespace.Server.Ownership
import Codespace.Server.Patch
import Codespace.Server.Permissions
import Codespace.Server.Provenance
import Codespace.Server.Redirect
import Codespace.Server.Replicas
import Codespace.Server.Retries
import Codespace.Server.Routes
import Codespace.Server.Rules
import Codespace.Server.Shown
import Codespace.Server.Starts
import Codespace.Server.Stream
import Codespace.Server.Updates
import Codespace.Server.Visibility
import Codespace.Server.Writes
import Codespace.Store.FieldOwnership
import Codespace.Store.Rows
import Codespace.Store.Versioned
import Codespace.Text.EventStream
import Codespace.Text.Json
import Codespace.Text.Labels
import Codespace.Text.Regex
import Codespace.Text.Whatwg
import Codespace.Text.Words
import Codespace.Ui.Clicks
import Codespace.Ui.Convergence
import Codespace.Ui.Create
import Codespace.Ui.Menu
import Codespace.Ui.Offers
import Codespace.Ui.Pending
import Codespace.Ui.Permissions
import Codespace.Ui.Queries
import Codespace.Ui.Reducer
import Codespace.Ui.Scaling
import Codespace.Ui.Selection
import Codespace.Ui.Sessions
import Codespace.Ui.Switching
import Codespace.Ui.Urls
