import ConsentBanner.Asset.Reference
import ConsentBanner.Asset.Template
import ConsentBanner.Browser.Basic
import ConsentBanner.Browser.Transport
import ConsentBanner.Client.Api
import ConsentBanner.Client.Config
import ConsentBanner.Client.Decision
import ConsentBanner.Client.Lifecycle
import ConsentBanner.Client.Rendering
import ConsentBanner.Client.Setup
import ConsentBanner.Client.Skeleton
import ConsentBanner.CommandLine.Arguments
import ConsentBanner.CommandLine.Basic
import ConsentBanner.CommandLine.Command
import ConsentBanner.CommandLine.Outcome
import ConsentBanner.Configuration.Basic
import ConsentBanner.Configuration.Options
import ConsentBanner.Configuration.Source
import ConsentBanner.Configuration.Standard
import ConsentBanner.Consent.Basic
import ConsentBanner.Consent.Region
import ConsentBanner.Consent.Report
import ConsentBanner.Consent.Store
import ConsentBanner.Consent.Vocabulary
import ConsentBanner.Fault
import ConsentBanner.Generation.Basic
import ConsentBanner.Generation.Failure
import ConsentBanner.Json.Basic
import ConsentBanner.Json.Display
import ConsentBanner.Json.Encoding
import ConsentBanner.Json.Members
import ConsentBanner.Json.Reader
import ConsentBanner.Json.Writer
import ConsentBanner.Main
import ConsentBanner.Markup.Banner
import ConsentBanner.Markup.Collapse
import ConsentBanner.Markup.Component
import ConsentBanner.Markup.Node
import ConsentBanner.Named
import ConsentBanner.Number.Basic
import ConsentBanner.Number.Double
import ConsentBanner.Number.Numeral
import ConsentBanner.Number.Shortest
import ConsentBanner.Panel.Basic
import ConsentBanner.Panel.Caption
import ConsentBanner.Proofs.Asset.Alike
import ConsentBanner.Proofs.Asset.ImageTag
import ConsentBanner.Proofs.Asset.Picture
import ConsentBanner.Proofs.Asset.Reference
import ConsentBanner.Proofs.Asset.Template
import ConsentBanner.Proofs.Browser.Cookie
import ConsentBanner.Proofs.Client.Source
import ConsentBanner.Proofs.Configuration.Layer
import ConsentBanner.Proofs.Configuration.Source
import ConsentBanner.Proofs.Consent.Basic
import ConsentBanner.Proofs.Consent.Channel
import ConsentBanner.Proofs.Consent.Delivery
import ConsentBanner.Proofs.Consent.Sharing
import ConsentBanner.Proofs.Consent.Store
import ConsentBanner.Proofs.Generation.Basic
import ConsentBanner.Proofs.Generation.Containment
import ConsentBanner.Proofs.Generation.EndTag
import ConsentBanner.Proofs.Generation.Forest
import ConsentBanner.Proofs.Generation.Image
import ConsentBanner.Proofs.Generation.Prepare
import ConsentBanner.Proofs.Generation.Script
import ConsentBanner.Proofs.Generation.Shown
import ConsentBanner.Proofs.Json.Chars
import ConsentBanner.Proofs.Json.Fields
import ConsentBanner.Proofs.Json.Length
import ConsentBanner.Proofs.Json.Number
import ConsentBanner.Proofs.Json.Path
import ConsentBanner.Proofs.Json.Plain
import ConsentBanner.Proofs.Json.RoundTrip
import ConsentBanner.Proofs.Markup.Banner
import ConsentBanner.Proofs.Markup.Button
import ConsentBanner.Proofs.Markup.Collapse
import ConsentBanner.Proofs.Markup.Document
import ConsentBanner.Proofs.Markup.Node
import ConsentBanner.Proofs.Markup.Passage
import ConsentBanner.Proofs.Markup.Picture
import ConsentBanner.Proofs.Markup.Reading
import ConsentBanner.Proofs.Markup.Token
import ConsentBanner.Proofs.Markup.Tree
import ConsentBanner.Proofs.Number.Decimal
import ConsentBanner.Proofs.Number.Error
import ConsentBanner.Proofs.Number.Rounding
import ConsentBanner.Proofs.Number.Shortest
import ConsentBanner.Proofs.Outcome
import ConsentBanner.Proofs.Panel
import ConsentBanner.Proofs.Schema
import ConsentBanner.Proofs.Schema.Total
import ConsentBanner.Proofs.Schema.Written
import ConsentBanner.Proofs.Script.Compact
import ConsentBanner.Proofs.Script.EndTag
import ConsentBanner.Proofs.Script.Literal
import ConsentBanner.Proofs.Script.Piece
import ConsentBanner.Proofs.Script.Quasi
import ConsentBanner.Proofs.Script.Reading
import ConsentBanner.Proofs.Script.Scan
import ConsentBanner.Proofs.Script.Segment
import ConsentBanner.Proofs.Script.Template
import ConsentBanner.Proofs.Script.Token
import ConsentBanner.Proofs.Session.Agreement
import ConsentBanner.Proofs.Session.Coherence
import ConsentBanner.Proofs.Session.Cookie
import ConsentBanner.Proofs.Session.Decision
import ConsentBanner.Proofs.Session.Effect
import ConsentBanner.Proofs.Session.Event
import ConsentBanner.Proofs.Session.Face
import ConsentBanner.Proofs.Session.Flush
import ConsentBanner.Proofs.Session.Panel
import ConsentBanner.Proofs.Session.Passage
import ConsentBanner.Proofs.Session.Placement
import ConsentBanner.Proofs.Session.Return
import ConsentBanner.Proofs.Session.Run
import ConsentBanner.Proofs.Session.Start
import ConsentBanner.Proofs.Session.Step
import ConsentBanner.Proofs.Session.Tabs
import ConsentBanner.Proofs.Session.TcString
import ConsentBanner.Proofs.Session.Visibility
import ConsentBanner.Proofs.Signal.Frame
import ConsentBanner.Proofs.Signal.Registry
import ConsentBanner.Proofs.Stylesheet.Block
import ConsentBanner.Proofs.Stylesheet.Color
import ConsentBanner.Proofs.Stylesheet.Compact
import ConsentBanner.Proofs.Stylesheet.Component
import ConsentBanner.Proofs.Stylesheet.Selector
import ConsentBanner.Proofs.Template.Arena
import ConsentBanner.Proofs.Template.Content
import ConsentBanner.Proofs.Template.Edit
import ConsentBanner.Proofs.Template.Fitted
import ConsentBanner.Proofs.Template.Mirror
import ConsentBanner.Proofs.Template.Offset
import ConsentBanner.Proofs.Template.Outline
import ConsentBanner.Proofs.Template.Raw
import ConsentBanner.Proofs.Template.Read
import ConsentBanner.Proofs.Template.RoundTrip
import ConsentBanner.Proofs.Template.Typed
import ConsentBanner.Proofs.Template.Written
import ConsentBanner.Proofs.Text
import ConsentBanner.Proofs.Text.Integer
import ConsentBanner.Proofs.Time.Clock
import ConsentBanner.Proofs.Time.Reader
import ConsentBanner.Proofs.Validation.Action
import ConsentBanner.Proofs.Validation.Basic
import ConsentBanner.Proofs.Validation.Checkable
import ConsentBanner.Proofs.Validation.Component
import ConsentBanner.Proofs.Validation.Forest
import ConsentBanner.Proofs.Validation.Layout
import ConsentBanner.Proofs.Validation.Normal
import ConsentBanner.Proofs.Validation.Outline
import ConsentBanner.Proofs.Validation.Result
import ConsentBanner.Proofs.Validation.Theme
import ConsentBanner.Proofs.Yaml.Reader
import ConsentBanner.Schema
import ConsentBanner.Script.Skeleton
import ConsentBanner.Script.Token
import ConsentBanner.Service.Answer
import ConsentBanner.Service.Basic
import ConsentBanner.Service.Request
import ConsentBanner.Session.Basic
import ConsentBanner.Session.Step
import ConsentBanner.Signal.Api
import ConsentBanner.Stylesheet.Banner
import ConsentBanner.Stylesheet.Base
import ConsentBanner.Stylesheet.Color
import ConsentBanner.Stylesheet.Compact
import ConsentBanner.Stylesheet.Component
import ConsentBanner.Stylesheet.Kind
import ConsentBanner.Stylesheet.Rule
import ConsentBanner.Template.Arena
import ConsentBanner.Template.Basic
import ConsentBanner.Template.Placement
import ConsentBanner.Template.Position
import ConsentBanner.Template.Read
import ConsentBanner.Template.Write
import ConsentBanner.Text.Blank
import ConsentBanner.Text.Case
import ConsentBanner.Text.Integer
import ConsentBanner.Text.Quoted
import ConsentBanner.Text.Search
import ConsentBanner.Text.Utf8
import ConsentBanner.Time.Clock
import ConsentBanner.Time.Moment
import ConsentBanner.Time.Reader
import ConsentBanner.Validation.Basic
import ConsentBanner.Validation.Complaint
import ConsentBanner.Validation.Component
import ConsentBanner.Validation.Layout
import ConsentBanner.Validation.Theme
import ConsentBanner.Yaml.Cursor
import ConsentBanner.Yaml.Kind
import ConsentBanner.Yaml.Node
import ConsentBanner.Yaml.Reader
import ConsentBanner.Yaml.Scalar
import ConsentBanner.Yaml.Tag
import ConsentBanner.Yaml.Token
import ConsentBanner.Yaml.Value
