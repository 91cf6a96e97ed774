import Stencil.Lookup.Context
import Stencil.Main
import Stencil.Proofs.Command.Check
import Stencil.Proofs.Engine.Cache
import Stencil.Proofs.Engine.History
import Stencil.Proofs.Format.Amounts
import Stencil.Proofs.Format.Slug
import Stencil.Proofs.Format.Standard
import Stencil.Proofs.Key.Field
import Stencil.Proofs.Key.Pieces
import Stencil.Proofs.Key.Place
import Stencil.Proofs.Key.Written
import Stencil.Proofs.Lookup.Chain
import Stencil.Proofs.Lookup.Node
import Stencil.Proofs.Lookup.Resolved
import Stencil.Proofs.Lookup.Segments
import Stencil.Proofs.Lookup.Session
import Stencil.Proofs.Lookup.Walk
import Stencil.Proofs.Lookup.Wrapped
import Stencil.Proofs.Render.Account
import Stencil.Proofs.Render.Complement
import Stencil.Proofs.Render.Escaped
import Stencil.Proofs.Render.Expansion
import Stencil.Proofs.Render.Flags
import Stencil.Proofs.Render.Lambda
import Stencil.Proofs.Render.Likeness
import Stencil.Proofs.Render.Muted
import Stencil.Proofs.Render.Room
import Stencil.Proofs.Render.Spared
import Stencil.Proofs.Render.Wrapped
import Stencil.Proofs.Settings.Layers
import Stencil.Proofs.Template.Continued
import Stencil.Proofs.Template.DelimiterTag
import Stencil.Proofs.Template.Markup
import Stencil.Proofs.Template.Reparsed
import Stencil.Proofs.Template.Trimmed
import Stencil.Proofs.Template.Unbounded
import Stencil.Proofs.Text.Escape
import Stencil.Proofs.Text.Unescape
import Stencil.Proofs.Value.Equality
import Stencil.Proofs.Value.Json
import Stencil.Proofs.Value.Unwrapped
import Stencil.Proofs.Value.Wrapped
