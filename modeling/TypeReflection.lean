import TypeReflection.Address
import TypeReflection.Chain
import TypeReflection.Context.Basic
import TypeReflection.Context.Flags
import TypeReflection.Context.Kind
import TypeReflection.Context.Type
import TypeReflection.EncodedName
import TypeReflection.Fault
import TypeReflection.Field.Cursor
import TypeReflection.Field.Descriptor
import TypeReflection.Field.Enumeration
import TypeReflection.Field.Flags
import TypeReflection.Field.Kind
import TypeReflection.Format
import TypeReflection.Image.AlignedBytes
import TypeReflection.Image.Basic
import TypeReflection.Image.Builder
import TypeReflection.Image.Definition
import TypeReflection.Image.Emission.Attachment
import TypeReflection.Image.Emission.Basic
import TypeReflection.Image.Emission.Context
import TypeReflection.Image.Emission.Field
import TypeReflection.Image.Emission.Type
import TypeReflection.Image.Error
import TypeReflection.Image.Symbol
import TypeReflection.Image.Workshop
import TypeReflection.Layout.Basic
import TypeReflection.Layout.Listing
import TypeReflection.Layout.Palette
import TypeReflection.Link
import TypeReflection.Lock.Basic
import TypeReflection.Lock.Mutex
import TypeReflection.Lock.RawMutex
import TypeReflection.Lock.Session
import TypeReflection.Memory
import TypeReflection.Metadata.Class
import TypeReflection.Metadata.Error
import TypeReflection.Metadata.Handle
import TypeReflection.Metadata.Kind
import TypeReflection.Metadata.Struct
import TypeReflection.Metadata.Type
import TypeReflection.Proofs.Address
import TypeReflection.Proofs.Address.Walk
import TypeReflection.Proofs.Chain
import TypeReflection.Proofs.Context.QualifiedName
import TypeReflection.Proofs.EncodedName
import TypeReflection.Proofs.EncodedName.References
import TypeReflection.Proofs.EncodedName.RoundTrip
import TypeReflection.Proofs.EncodedName.Shown
import TypeReflection.Proofs.Field.Enumeration
import TypeReflection.Proofs.Image.Definition
import TypeReflection.Proofs.Image.Emission
import TypeReflection.Proofs.Image.Finish
import TypeReflection.Proofs.Image.History
import TypeReflection.Proofs.Image.Reference
import TypeReflection.Proofs.Image.Relocation
import TypeReflection.Proofs.Image.Renumbering
import TypeReflection.Proofs.Image.Storage
import TypeReflection.Proofs.Image.Workshop
import TypeReflection.Proofs.Image.Writing
import TypeReflection.Proofs.Layout.Agreement
import TypeReflection.Proofs.Layout.Coloring
import TypeReflection.Proofs.Layout.Columns
import TypeReflection.Proofs.Layout.Listing
import TypeReflection.Proofs.Layout.Readback
import TypeReflection.Proofs.Layout.TypeNames
import TypeReflection.Proofs.Link
import TypeReflection.Proofs.Lock.Accounts
import TypeReflection.Proofs.Lock.Lifecycle
import TypeReflection.Proofs.Lock.Scope
import TypeReflection.Proofs.Lock.Sharing
import TypeReflection.Proofs.Lookahead
import TypeReflection.Proofs.Memory
import TypeReflection.Proofs.Metadata.Acceptance
import TypeReflection.Proofs.Metadata.Faults
import TypeReflection.Proofs.Reading
import TypeReflection.Proofs.Reflection.Ancestry
import TypeReflection.Proofs.Reflection.AppendOnly
import TypeReflection.Proofs.Reflection.Chain
import TypeReflection.Proofs.Reflection.Context
import TypeReflection.Proofs.Reflection.Copies
import TypeReflection.Proofs.Reflection.Entry
import TypeReflection.Proofs.Reflection.Field
import TypeReflection.Proofs.Reflection.Layout
import TypeReflection.Proofs.Reflection.Link
import TypeReflection.Proofs.Reflection.LinkDecoding
import TypeReflection.Proofs.Reflection.Metadata
import TypeReflection.Proofs.Reflection.Opening
import TypeReflection.Proofs.Reflection.RoundTrip
import TypeReflection.Proofs.Reflection.SelfContained
import TypeReflection.Proofs.Reflection.Stored
import TypeReflection.Proofs.Traversal
import TypeReflection.Proofs.Utf8
import TypeReflection.Proofs.View.Alignment
import TypeReflection.Proofs.View.Basic
import TypeReflection.Proofs.View.Extension
import TypeReflection.Proofs.View.Query
import TypeReflection.Proofs.View.Safety
import TypeReflection.Scalar
import TypeReflection.Text.Numeral
import TypeReflection.Text.Utf8
